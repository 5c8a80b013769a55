import WidgetFlow.Proofs.Statements.Values

/-!
# Reading calls back

A call is cut at its signature: the class, the result and the name of the method end where the next
part begins, the parameters end at the first closing bracket, and the arguments at the last one.
-/

namespace WidgetFlow

open Text Stmt

/-- Reading what was written gives back a list if it gives back each element. -/
theorem mapM_map_eq_ok {α β ε : Type} {write : α → β} {read : β → Except ε α} {elements : List α}
    (h : ∀ e ∈ elements, read (write e) = .ok e) :
    (elements.map write).mapM read = .ok elements := by
  induction elements with
  | nil => rfl
  | cons e elements ih =>
    rw [List.forall_mem_cons] at h
    rw [List.map_cons, List.mapM_cons, h.1, ih h.2]
    rfl

/-! ## Parameters -/

namespace MethodSig

variable {sig : MethodSig}

def paramsText (sig : MethodSig) : List Char :=
  [','].intercalate (sig.params.map fun ty => ty.text.toList)

/-- The types of a signature stand between commas. -/
theorem mem_paramsText (h : sig.params.all Ty.isWritten) {c : Char} (hc : c ∈ sig.paramsText) :
    c = ',' ∨ isPlain c ∨ c = '.' ∨ c = '[' ∨ c = ']' := by
  rcases mem_intercalate hc with hcomma | ⟨piece, hpiece, hmem⟩
  · exact .inl (by simpa using hcomma)
  · obtain ⟨ty, hty, rfl⟩ := List.mem_map.mp hpiece
    exact .inr (Ty.mem_text (List.all_eq_true.mp h ty hty) hmem)

theorem ne_close_of_mem_paramsText (h : sig.params.all Ty.isWritten) {c : Char}
    (hc : c ∈ sig.paramsText) : c != ')' := by
  rcases mem_paramsText h hc with rfl | hplain | rfl | rfl | rfl
  case inr.inl => simpa using ne_of_isPlain hplain (by decide)
  all_goals rfl

theorem readParams_paramsText (h : sig.params.all Ty.isWritten) :
    readParams sig.paramsText = .ok sig.params := by
  have hty : ∀ ty ∈ sig.params, ty.isWritten := List.all_eq_true.mp h
  by_cases hne : sig.params = []
  · rw [paramsText, hne]
    rfl
  have hpieces : splitOn ',' sig.paramsText = sig.params.map fun ty => ty.text.toList := by
    refine splitOn_intercalate (by simpa using hne) fun piece hpiece => ?_
    obtain ⟨ty, hmem, rfl⟩ := List.mem_map.mp hpiece
    intro hcomma
    rcases Ty.mem_text (hty ty hmem) hcomma with hc | hc | hc | hc <;>
      exact absurd hc (by decide)
  have htrim : (sig.params.map fun ty => ty.text.toList).map trim =
      sig.params.map fun ty => ty.text.toList := by
    rw [List.map_map]
    refine List.map_congr_left fun ty hmem => ?_
    exact (Tight.of_forall (Ty.text_ne_nil (Ty.named (hty ty hmem))) fun _ =>
      Ty.isBlank_of_mem_text (Ty.named (hty ty hmem))).trim_eq
  have hfilter : ((sig.params.map fun ty => ty.text.toList).filter fun piece => !piece.isEmpty) =
      sig.params.map fun ty => ty.text.toList := by
    refine List.filter_eq_self.mpr fun piece hpiece => ?_
    obtain ⟨ty, hmem, rfl⟩ := List.mem_map.mp hpiece
    simpa using Ty.text_ne_nil (Ty.named (hty ty hmem))
  rw [readParams, hpieces, htrim, hfilter]
  refine mapM_map_eq_ok fun ty hmem => ?_
  rw [Ty.read?_text (Ty.named (hty ty hmem)), orFault]

/-- The characters of the name of a method: the name of a constructor has brackets. -/
theorem mem_name (h : sig.isWritten) {c : Char} (hc : c ∈ sig.name.toList) :
    isPlain c ∨ c = '<' ∨ c = '>' := by
  simp only [isWritten, Bool.and_eq_true, Bool.or_eq_true, beq_iff_eq] at h
  rcases h.1.2 with hname | hname
  · exact .inl (isPlain_of_mem hname hc)
  · have hinit : "<init>".toList.all fun c => isPlain c || c == '<' || c == '>' := by decide
    simpa [or_assoc] using List.all_eq_true.mp hinit c (hname ▸ hc)

theorem name_ne_nil (h : sig.isWritten) : sig.name.toList ≠ [] := by
  simp only [isWritten, Bool.and_eq_true, Bool.or_eq_true, beq_iff_eq] at h
  rcases h.1.2 with hname | hname
  · exact ne_nil_of_isIdentifier hname
  · rw [hname]
    decide

end MethodSig

/-! ## Cutting a call -/

namespace Call

variable {call : Call Value}

def argsText (call : Call Value) : List Char :=
  [',', ' '].intercalate (call.args.map fun arg => arg.text.toList)

/-- The text of a call after the opening bracket of the signature. -/
def tailText (call : Call Value) : List Char :=
  call.method.owner.toList ++ ':' :: ' ' :: (call.method.result.text.toList ++ ' ' ::
    (call.method.name.toList ++ '(' :: (call.method.paramsText ++ ')' :: '>' :: '(' ::
      (call.argsText ++ [')']))))

def baseText (call : Call Value) : List Char :=
  match call.base with
  | some base => base.toList ++ ['.']
  | none => []

def parts (call : Call Value) : CallText where
  kind := call.kind
  base := call.base
  owner := call.method.owner.toList
  result := call.method.result.text.toList
  name := call.method.name.toList
  params := call.method.paramsText
  args := call.argsText

theorem texts_eq_map (values : List Value) : Value.texts values = values.map Value.text := by
  induction values with
  | nil => rw [Value.texts, List.map_nil]
  | cons v values ih => rw [Value.texts, List.map_cons, ih]

theorem toList_text (call : Call Value) :
    (Value.call call).text.toList =
      call.kind.word.toList ++ ' ' :: (call.baseText ++ '<' :: call.tailText) := by
  have hargs : (Text.joinWith ", " (Value.texts call.args)).toList = call.argsText := by
    rw [toList_joinWith, texts_eq_map, List.map_map]
    rfl
  have hparams : (Text.joinWith "," (call.method.params.map Ty.text)).toList =
      call.method.paramsText := by
    rw [toList_joinWith, List.map_map]
    rfl
  cases hbase : call.base <;>
    simp [Value.text, textWith, String.toList_append, MethodSig.text, MethodSig.subsig,
      subsignature, hargs, hparams, baseText, hbase, tailText]

theorem legible_of_mem (h : call.isWritten) {arg : Value} (harg : arg ∈ call.args) :
    arg.Legible := by
  simp only [isWritten, Bool.and_eq_true] at h
  exact Value.legible (List.all_eq_true.mp h.1.2 arg harg)

theorem isWritten_method (h : call.isWritten) : call.method.isWritten := by
  simp only [isWritten, Bool.and_eq_true] at h
  exact h.1.1.1

/-- The arguments of a call stand on one line. -/
theorem newline_not_mem_argsText (h : call.isWritten) : '\n' ∉ call.argsText := by
  intro hmem
  rcases mem_intercalate hmem with hseparator | ⟨piece, hpiece, hpieceMem⟩
  · exact absurd hseparator (by decide)
  · obtain ⟨arg, harg, rfl⟩ := List.mem_map.mp hpiece
    exact (legible_of_mem h harg).balanced.not_mem_newline hpieceMem

theorem callTail?_tailText (h : call.isWritten) :
    callTail? call.kind call.base call.tailText = some call.parts := by
  have hmethod := isWritten_method h
  have hname : ∀ c ∈ call.method.name.toList, isNameChar c || c == '<' || c == '>' := fun c hc => by
    rcases MethodSig.mem_name hmethod hc with hplain | rfl | rfl
    · simp [isNameChar_of_isPlain hplain]
    all_goals rfl
  have hnameNe := MethodSig.name_ne_nil hmethod
  let signed := call.argsText ++ [')']
  let opened := call.method.paramsText ++ ')' :: '>' :: '(' :: signed
  have hs : Stops isBlank (call.method.name.toList ++ '(' :: opened) := by
    refine .append hnameNe (.of_forall fun c hc => ?_)
    rcases MethodSig.mem_name hmethod hc with hplain | rfl | rfl
    · exact isBlank_of_isPlain hplain
    all_goals rfl
  simp only [MethodSig.isWritten, Bool.and_eq_true] at hmethod
  obtain ⟨⟨⟨howner, hresult⟩, -⟩, hparams⟩ := hmethod
  have hmember : memberText? call.tailText = some (call.method.owner.toList,
      call.method.result.text.toList, call.method.name.toList ++ '(' :: opened) :=
    memberText?_eq (isDotted_of_isClassName howner) (Ty.text_ne_nil (Ty.named hresult))
      (fun _ => Ty.isBlank_of_mem_text (Ty.named hresult)) hs
  have hnameRun : run1? (fun c => isNameChar c || c == '<' || c == '>')
      (call.method.name.toList ++ '(' :: opened) = some (call.method.name.toList, '(' :: opened) :=
    run1?_append hnameNe hname (.cons rfl)
  -- The name may hold an angle bracket, but no bracket that ends the parameters stands in them.
  have hround : ∀ c ∈ call.method.paramsText, c != ')' :=
    fun _ => MethodSig.ne_close_of_mem_paramsText hparams
  have htake : opened.takeWhile (· != ')') = call.method.paramsText :=
    Stops.takeWhile_append (.cons rfl) hround
  have hdrop : opened.dropWhile (· != ')') = ')' :: '>' :: '(' :: signed :=
    Stops.dropWhile_append (.cons rfl) hround
  have hopen : after? "(" ('(' :: opened) = some opened := rfl
  have hclose : after? ")>(" (')' :: '>' :: '(' :: signed) = some signed := rfl
  have hargs : beforeLast? ')' signed = some call.argsText := beforeLast?_append ')' _
  simp [callTail?, hmember, hnameRun, hopen, htake, hdrop, hclose, hargs,
    newline_not_mem_argsText h, parts]

/-- A call on a receiver is cut at the signature. -/
theorem instanceCall?_eq (kind : CallKind) (word : String) {base : String} (h : isLocalName base)
    (rest : List Char) :
    instanceCall? kind word (word.toList ++ ' ' :: (base.toList ++ ['.'] ++ '<' :: rest)) =
      callTail? kind (some base) rest := by
  have hbase := isIdentifier_of_isLocalName h
  have hblank : run1? isBlank (' ' :: (base.toList ++ '.' :: '<' :: rest)) =
      some ([' '], base.toList ++ '.' :: '<' :: rest) :=
    run1?_cons rfl (.append (ne_nil_of_isIdentifier hbase) (tight_of_isIdentifier hbase).blank.start)
  have hrun : run1? isNameChar (base.toList ++ '.' :: '<' :: rest) =
      some (base.toList, '.' :: '<' :: rest) :=
    run1?_of_isIdentifier hbase (.cons rfl)
  have hdot : after? ".<" ('.' :: '<' :: rest) = some rest := rfl
  simp [instanceCall?, after?_append, hblank, hrun, hdot]

theorem kind_cases (h : call.isWritten) : (call.kind = .static ∧ call.base = none) ∨
    (call.kind ≠ .static ∧ ∃ base, call.base = some base ∧ isLocalName base) := by
  simp only [isWritten, Bool.and_eq_true] at h
  cases hkind : call.kind <;> cases hbase : call.base <;> simp_all

theorem callText?_text (h : call.isWritten) :
    callText? (Value.call call).text.toList = some call.parts := by
  have htail := callTail?_tailText h
  rw [toList_text]
  rcases kind_cases h with ⟨hkind, hbase⟩ | ⟨hkind, base, hbase, hlocal⟩
  · rw [hkind, hbase] at htail
    rw [hkind, baseText, hbase]
    exact htail
  · let rest := ' ' :: (base.toList ++ ['.'] ++ '<' :: call.tailText)
    have hfound : instanceCall? call.kind call.kind.word (call.kind.word.toList ++ rest) =
        some call.parts := by
      rw [instanceCall?_eq _ _ hlocal, ← hbase, htail]
    have hbaseText : call.baseText = base.toList ++ ['.'] := by rw [baseText, hbase]
    rw [hbaseText]
    -- The words of the kinds begin differently, so the kinds that are tried before refuse.
    cases hword : call.kind with
    | virtual =>
      rw [hword, CallKind.word] at hfound
      rw [callText?, CallKind.word, hfound]
      rfl
    | interface =>
      have hvirtual : instanceCall? .virtual "virtualinvoke"
        ("interfaceinvoke".toList ++ rest) = none := rfl
      rw [hword, CallKind.word] at hfound
      rw [callText?, CallKind.word, hvirtual, hfound]
      rfl
    | special =>
      have hvirtual : instanceCall? .virtual "virtualinvoke"
        ("specialinvoke".toList ++ rest) = none := rfl
      have hinterface : instanceCall? .interface "interfaceinvoke"
        ("specialinvoke".toList ++ rest) = none := rfl
      rw [hword, CallKind.word] at hfound
      rw [callText?, CallKind.word, hvirtual, hinterface, hfound]
      rfl
    | static => exact absurd hword hkind

theorem signature_parts (h : call.isWritten) : call.parts.signature = .ok call.method := by
  have hmethod := isWritten_method h
  simp only [MethodSig.isWritten, Bool.and_eq_true] at hmethod
  obtain ⟨⟨⟨-, hresult⟩, -⟩, hparams⟩ := hmethod
  simp only [CallText.signature, parts, String.ofList_toList, Ty.parse?_text (Ty.named hresult),
    MethodSig.readParams_paramsText hparams, orFault]
  rfl

theorem mentionsCall_text (call : Call Value) : mentionsCall (Value.call call).text.toList := by
  have hword : "invoke".toList <:+ call.kind.word.toList := by cases call.kind <;> decide
  obtain ⟨before, hbefore⟩ := hword
  rw [mentionsCall, occursIn_iff, toList_text, ← hbefore]
  exact ⟨before, call.baseText ++ '<' :: call.tailText, by simp⟩

theorem shapeOf_text (h : call.isWritten) :
    shapeOf (Value.call call).text.toList =
      .ok (.call call.kind call.method call.base (call.args.map fun arg => arg.text.toList)) := by
  have hargs : splitArgs call.argsText = call.args.map fun arg => arg.text.toList := by
    refine splitArgs_intercalate (fun text htext => ?_) fun text htext => ?_ <;>
      obtain ⟨arg, harg, rfl⟩ := List.mem_map.mp htext
    · exact (legible_of_mem h harg).balanced
    · exact (legible_of_mem h harg).tight.blank
  have hconstant : Stops startsConstant (Value.call call).text.toList := by
    rw [toList_text]
    cases call.kind <;> exact .cons rfl
  have hblank : ' ' ∈ (Value.call call).text.toList := by
    rw [toList_text]
    simp
  rw [shapeOf_eq_callShape hconstant (ne_words_of_mem hblank rfl)
    (mentionsCall_text call) (callText?_text h), callShape, signature_parts h, ← hargs]
  rfl

theorem tight_text (call : Call Value) : Tight isEdge (Value.call call).text.toList := by
  have hword : Tight isEdge call.kind.word.toList := by
    cases call.kind <;> exact .of_all (by decide) (by decide)
  have hclose : Tight isEdge [')'] := .of_all (by decide) (by decide)
  rw [toList_text]
  simpa [tailText] using hword.append (' ' :: (call.baseText ++ '<' ::
    (call.method.owner.toList ++ ':' :: ' ' :: (call.method.result.text.toList ++ ' ' ::
      (call.method.name.toList ++ '(' :: (call.method.paramsText ++ ')' :: '>' :: '(' ::
        call.argsText)))))) hclose

/-- What follows the word of a call begins with the receiver or the signature. -/
theorem stops_baseText (h : call.isWritten) :
    Stops isEdge (call.baseText ++ '<' :: call.tailText) := by
  rcases kind_cases h with ⟨-, hbase⟩ | ⟨-, base, hbase, hlocal⟩ <;> rw [baseText, hbase]
  · exact .cons rfl
  · have hbase := tight_of_isIdentifier (isIdentifier_of_isLocalName hlocal)
    exact .append (by simp) (.append hbase.ne_nil hbase.start)

theorem readValue_text (h : call.isWritten) :
    ∀ depth, (Value.call call).text.toList.length < depth →
      readValue depth (Value.call call).text.toList = .ok (.call call) := by
  refine Value.read_of_shapeOf (tight_text call) (shapeOf_text h) fun depth hdepth => ?_
  have hargs : (call.args.map fun arg => arg.text.toList).mapM (readValue depth) =
      .ok call.args := by
    refine mapM_map_eq_ok fun arg harg => (legible_of_mem h harg).read depth ?_
    have hle : arg.text.toList.length ≤ call.argsText.length :=
      length_le_length_intercalate (List.mem_map_of_mem harg)
    simp only [toList_text, tailText, List.length_append, List.length_cons] at hdepth
    omega
  have harity : checkArity call.method call.args = .ok call.args := by
    simp only [isWritten, Bool.and_eq_true, beq_iff_eq] at h
    rw [checkArity, if_pos h.1.1.2]
  rw [readShape, hargs]
  exact congrArg (Except.map _) harity

/-- The search for an assignment sign passes a call. -/
theorem tame_text (h : call.isWritten) : Tame (Value.call call).text.toList := by
  have hmethod := isWritten_method h
  have hname : Tame call.method.name.toList := .of_forall fun c hc => by
    rcases MethodSig.mem_name hmethod hc with hplain | rfl | rfl
    · exact ⟨ne_of_isPlain hplain (by decide), ne_of_isPlain hplain (by decide)⟩
    all_goals decide
  simp only [MethodSig.isWritten, Bool.and_eq_true] at hmethod
  obtain ⟨⟨⟨howner, hresult⟩, -⟩, hparams⟩ := hmethod
  have hparams : Tame call.method.paramsText := by
    refine .intercalate (.of_all (by decide)) fun piece hpiece => ?_
    obtain ⟨ty, hty, rfl⟩ := List.mem_map.mp hpiece
    exact (Ty.quiet_text (List.all_eq_true.mp hparams ty hty)).balanced.tame
  have hargs : Tame call.argsText := by
    refine .intercalate (.of_all (by decide)) fun piece hpiece => ?_
    obtain ⟨arg, harg, rfl⟩ := List.mem_map.mp hpiece
    exact (legible_of_mem h harg).balanced.tame
  have hbase : Tame call.baseText := by
    rcases kind_cases h with ⟨-, hbase⟩ | ⟨-, base, hbase, hlocal⟩ <;> rw [baseText, hbase]
    · exact .nil
    · exact (Quiet.of_isIdentifier (isIdentifier_of_isLocalName hlocal)).balanced.tame.append
        (.of_all (by decide))
  have hword : Tame call.kind.word.toList := by
    cases call.kind <;> exact .of_all (by decide)
  have hclass := (Quiet.of_isDotted (isDotted_of_isClassName howner)).balanced.tame
  have hresult := (Ty.quiet_text hresult).balanced.tame
  -- The parts are joined by these characters, none of which the search looks at.
  have hsign {c : Char} {text : List Char} (hc : c ∈ " <>:()".toList) (htext : Tame text) :
      Tame (c :: text) := by
    have hall : " <>:()".toList.all fun c => c != '"' && c != '=' := by decide
    have hne : c ≠ '"' ∧ c ≠ '=' := by simpa using List.all_eq_true.mp hall c hc
    exact .cons hne.1 hne.2 htext
  have hcall : Tame ('(' :: (call.argsText ++ [')'])) :=
    hsign (by decide) (hargs.append (.of_all (by decide)))
  have hsignature : Tame ('(' :: (call.method.paramsText ++ ')' :: '>' :: '(' ::
      (call.argsText ++ [')']))) :=
    hsign (by decide) (hparams.append (hsign (by decide) (hsign (by decide) hcall)))
  have htail : Tame call.tailText :=
    hclass.append (hsign (by decide) (hsign (by decide)
      (hresult.append (hsign (by decide) (hname.append hsignature)))))
  rw [toList_text]
  exact hword.append (hsign (by decide) (hbase.append (hsign (by decide) htail)))

end Call

end WidgetFlow
