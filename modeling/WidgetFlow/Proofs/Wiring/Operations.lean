import WidgetFlow.Proofs.Wiring.Values

/-!
# Building operations

The slots of the operations that calls become hold nodes that were made for the locals and the
constants of the call.
-/

namespace WidgetFlow.Wiring

open FlowGraph Analysis

variable {base : FlowGraph} {ctx : Context} {permit : Permit} {law : Law Notes} {here : CallSite}

theorem builds_firstThatTakes {attempts : List (Wiring Bool)}
    (h : ∀ attempt ∈ attempts, Upholds law base attempt) :
    Upholds law base (firstThatTakes attempts) := by
  induction attempts with
  | nil => exact .done _
  | cons first rest ih =>
    refine (h first List.mem_cons_self).andThen fun taken => ?_
    split
    · exact .done _
    · exact ih fun attempt hattempt => h attempt (List.mem_cons_of_mem _ hattempt)

variable [Walks ctx permit law]

include permit

theorem builds_receiverNode? :
    Ensures law base (here.receiverNode? ctx : Wiring (Option NodeId)) HasHolder? :=
  builds_varNode?

theorem builds_resultNode? :
    Ensures law base (here.resultNode? ctx : Wiring (Option NodeId)) HasHolder? :=
  builds_varNode?

include ctx in
theorem builds_takeAs {op : Op} (hslots : base.HasSlots op) (hkind : op.kind.isSetListener = false)
    (hcontent : op.isContent = false) : Upholds law base (takeAs op) :=
  (builds_addOp hslots hkind hcontent).andThen fun _ => .done _

theorem builds_takeInflate (hhere : here.Stands ctx) : Upholds law base (takeInflate ctx here) := by
  unfold takeInflate
  extract_lets owner fromInflater fromView idAt
  split
  case isTrue => exact .done _
  split
  case h_2 => exact .done _
  rename_i harg
  split
  case isTrue => exact .done _
  split
  case h_2 => exact .done _
  refine (builds_valueNode? (.of_arg hhere harg)).bind fun id g _ hid => ?_
  split
  case h_2 => exact (Ensures.gap _).andThen fun _ => .done _
  rename_i id
  refine builds_resultNode?.bind fun res g hg hresult => ?_
  have hid := (hid id rfl).mono hg
  split
  case h_1 =>
    split
    · exact .done _
    · exact builds_takeAs ⟨nofun, .some hid, hresult.hasVar?⟩ rfl rfl
  case h_2 root _ =>
    refine (builds_makeHolder (by decide)).bind fun view g hg hview => ?_
    refine builds_varNode.bind fun root g hg' hroot => ?_
    have hview := hview.mono hg'
    have hid := hid.mono (hg.trans hg')
    have hresult := hresult.mono (hg.trans hg')
    refine .andThen (builds_addOp ⟨nofun, .some hid, .some hview.hasVar⟩ rfl rfl) fun _ => ?_
    refine .andThen (builds_addOp ⟨.some hroot.hasValue, .some hview.hasValue, nofun⟩ rfl rfl) fun _ => ?_
    exact .andThen (builds_connect? _ hview.hasValue hresult) fun _ => .done _

theorem builds_takeInflateContent (hhere : here.Stands ctx) :
    Upholds law base (takeInflateContent ctx here) := by
  unfold takeInflateContent
  split
  case isTrue => exact .done _
  split
  case h_2 => exact .done _
  rename_i harg
  split
  case isTrue => exact .done _
  refine (builds_valueNode? (.of_arg hhere harg)).bind fun id g _ hid => ?_
  refine builds_receiverNode?.bind fun receiver g hg hreceiver => ?_
  split
  · exact (Ensures.gap _).andThen fun _ => .done _
  · exact builds_takeAs ⟨hreceiver.hasValue?, hid.mono hg, nofun⟩ rfl rfl

theorem builds_lookupIdNode? {site : StmtId} {lookup : IdLookup} {v : Value}
    (h : ctx.Places site v) : Ensures law base (lookupIdNode? ctx site lookup v) HasValue? := by
  unfold lookupIdNode?
  refine (builds_valueNode? h).bind fun id g _ hid => ?_
  split
  next id => exact .pure fun _ hg => hid.mono hg
  next literal =>
    exact .map ((builds_idNode .anonymous literal).weaken fun _ _ _ hliteral => .some hliteral)
  next => exact .pure fun _ _ => nofun

theorem builds_takeFindInView (hhere : here.Stands ctx) :
    Upholds law base (takeFindInView ctx here) := by
  unfold takeFindInView
  split
  case h_2 => exact .done _
  rename_i lookup _
  split
  case h_2 => exact .done _
  split
  case isTrue => exact .done _
  split
  case h_2 => exact .done _
  rename_i harg
  refine (builds_lookupIdNode? (.of_arg hhere harg)).bind fun id g _ hid => ?_
  refine builds_resultNode?.bind fun res g hg hresult => ?_
  split
  case isTrue => exact .done _
  refine builds_receiverNode?.bind fun receiver g hg' hreceiver => ?_
  exact builds_takeAs
    ⟨hreceiver.hasValue?, hid.mono (hg.trans hg'), (hresult.mono hg').hasVar?⟩ rfl rfl

theorem builds_takeFindInWindow (hhere : here.Stands ctx) :
    Upholds law base (takeFindInWindow ctx here) := by
  unfold takeFindInWindow
  split
  case isTrue => exact .done _
  refine builds_resultNode?.bind fun res g _ hresult => ?_
  split
  case h_2 => exact .done _
  rename_i res
  refine builds_receiverNode?.bind fun receiver g hg hreceiver => ?_
  refine (builds_argNode? fun _ harg => .of_arg hhere harg).bind fun id g hg' hid => ?_
  split
  · exact (Ensures.gap _).andThen fun _ => .done _
  · exact builds_takeAs
      ⟨(hreceiver.mono hg').hasValue?, hid, (hresult.mono (hg.trans hg')).hasVar?⟩ rfl rfl

theorem builds_takeFindByPlace : Upholds law base (takeFindByPlace ctx here) := by
  unfold takeFindByPlace
  extract_lets owner
  split
  case isTrue => exact .done _
  split
  case h_2 => exact .done _
  split
  case isTrue => exact .done _
  refine builds_resultNode?.bind fun res g _ hresult => ?_
  refine builds_receiverNode?.bind fun receiver g hg hreceiver => ?_
  split
  · exact .done _
  · exact builds_takeAs ⟨hreceiver.hasValue?, nofun, (hresult.mono hg).hasVar?⟩ rfl rfl

theorem builds_takeSetContent : Upholds law base (takeSetContent ctx here) := by
  unfold takeSetContent
  split
  case isTrue => exact .done _
  split
  case isTrue => exact .done _
  refine builds_receiverNode?.bind fun receiver g _ hreceiver => ?_
  split
  case h_2 => exact .done _
  rename_i view _
  split
  case isTrue => exact .done _
  refine builds_varNode.bind fun view g hg hview => ?_
  exact builds_takeAs ⟨(hreceiver.mono hg).hasValue?, .some hview.hasValue, nofun⟩ rfl rfl

theorem builds_takeAddChild : Upholds law base (takeAddChild ctx here) := by
  unfold takeAddChild
  split
  case isTrue => exact .done _
  refine builds_receiverNode?.bind fun receiver g _ hreceiver => ?_
  split
  case h_2 => exact .done _
  rename_i c _
  split
  case isTrue => exact .done _
  refine builds_varNode.bind fun c g hg hchild => ?_
  exact builds_takeAs ⟨(hreceiver.mono hg).hasValue?, .some hchild.hasValue, nofun⟩ rfl rfl

theorem builds_takeSetId (hhere : here.Stands ctx) : Upholds law base (takeSetId ctx here) := by
  unfold takeSetId
  split
  case isTrue => exact .done _
  refine (builds_argNode? fun _ harg => .of_arg hhere harg).bind fun id g _ hid => ?_
  refine builds_receiverNode?.bind fun receiver g hg hreceiver => ?_
  split
  · exact .done _
  · exact builds_takeAs ⟨hreceiver.hasValue?, hid.mono hg, nofun⟩ rfl rfl

theorem builds_takeSetListener (hhere : here.Stands ctx) :
    Upholds law base (takeSetListener ctx here) := by
  unfold takeSetListener
  split
  case h_2 => exact .done _
  rename_i registration hregistration
  split
  case h_2 => exact .done _
  case h_3 => exact (Ensures.gap _).andThen fun _ => .done _
  split
  case isTrue => exact .done _
  split
  case h_2 => exact .done _
  split
  case isTrue => exact .done _
  refine builds_varNode.bind fun view g _ hview => ?_
  refine builds_varNode.bind fun lis g hg hlistener => ?_
  have hview := hview.mono hg
  extract_lets contextMenu finish
  have hfinish : Upholds law g (finish ()) := .done _
  have hcall : (ctx.call? here.site).bind ctx.hierarchy.registration? = some registration := by
    rw [hhere]
    exact hregistration
  refine .andThen (?_ : Upholds law g _) fun op => ?_
  · exact ensures_graphStep fun _ hbase _ => ⟨.register rfl rfl hcall (HasSlots.mono hbase
      ⟨.some hview.hasValue, .some hlistener.hasValue, by nofun⟩) _, trivial⟩
  split
  · exact builds_defer hview hlistener hfinish
  · exact hfinish

theorem builds_takeAddMenuItem : Upholds law base (takeAddMenuItem ctx here) := by
  unfold takeAddMenuItem
  split
  case h_2 => exact .done _
  refine builds_receiverNode?.bind fun menu g _ hmenu => ?_
  split
  case h_2 => exact .done _
  rename_i menu
  have hmenu := hmenu menu rfl
  refine builds_menuItemNode.bind fun item g hitemGrow hitem => ?_
  refine .andThen builds_modifyFacts fun _ => ?_
  refine builds_resultNode?.bind fun res g hg hresult => ?_
  have hmenu := hmenu.mono (hitemGrow.trans hg)
  have hitem := hitem.mono hg
  extract_lets proceed
  -- the rest is the same whichever variable holds the item
  have hproceed : ∀ itemVar g', Extends g g' → g'.HasHolder itemVar →
      Upholds law g' (proceed itemVar) := by
    intro itemVar g' hg hitemVar
    refine .andThen (builds_connect _ (hitem.mono hg) hitemVar.hasGoal) fun _ => ?_
    extract_lets finish
    have hfinish : Upholds law g' (finish ()) :=
      builds_takeAs ⟨.some (hmenu.mono hg).hasValue, .some hitemVar.hasValue, nofun⟩ rfl rfl
    split
    · split
      · refine (builds_idNode _ _).andThen fun id => ?_
        exact .andThen (ensures_modifyGraph fun _ _ => .name item id _ _) fun _ => hfinish
      · exact hfinish
    · exact hfinish
  split
  next res =>
    rw [pure_bind]
    exact hproceed res g (.refl _) (hresult res rfl)
  next =>
    exact (builds_makeHolder (by decide)).bind fun itemVar g hg hitemVar =>
      hproceed itemVar g hg hitemVar

theorem builds_takeInflateMenu (hhere : here.Stands ctx) :
    Upholds law base (takeInflateMenu ctx here) := by
  unfold takeInflateMenu
  split
  case isTrue => exact .done _
  split
  case h_2 => exact .done _
  rename_i harg
  split
  case h_2 => exact .done _
  rename_i hmenuArg
  refine (builds_valueNode? (.of_arg hhere harg)).bind fun id g _ hid => ?_
  refine (builds_valueNode? (.of_arg hhere hmenuArg)).bind fun menu g hg hmenu => ?_
  split
  · exact .done _
  · exact builds_takeAs ⟨hmenu, hid.mono hg, nofun⟩ rfl rfl

theorem builds_takeGetTabHost : Upholds law base (takeGetTabHost ctx here) := by
  unfold takeGetTabHost
  split
  case isTrue => exact .done _
  split
  case h_2 => exact (Ensures.gap _).andThen fun _ => .done _
  refine builds_receiverNode?.bind fun receiver g _ hreceiver => ?_
  refine (builds_idNode _ _).bind fun layout g hg hlayout => ?_
  have hreceiver := (hreceiver.mono hg).hasValue?
  refine .andThen (builds_addOp ⟨hreceiver, .some hlayout, nofun⟩ rfl rfl) fun _ => ?_
  refine (builds_idNode _ _).bind fun host g hg hhost => ?_
  refine builds_resultNode?.bind fun res g hg' hresult => ?_
  exact builds_takeAs
    ⟨hreceiver.mono (hg.trans hg'), .some (hhost.mono hg'), hresult.hasVar?⟩ rfl rfl

theorem builds_takeGetListView : Upholds law base (takeGetListView ctx here) := by
  unfold takeGetListView
  split
  case isTrue => exact .done _
  refine builds_resultNode?.bind fun res g _ hresult => ?_
  split
  case h_2 => exact (Ensures.gap _).andThen fun _ => .done _
  split
  case h_2 => exact (Ensures.gap _).andThen fun _ => .done _
  refine builds_receiverNode?.bind fun receiver g hg hreceiver => ?_
  refine (builds_idNode _ _).bind fun id g hg' hid => ?_
  exact builds_takeAs
    ⟨(hreceiver.mono hg').hasValue?, .some hid, (hresult.mono (hg.trans hg')).hasVar?⟩ rfl rfl

theorem builds_takeOperation (hhere : here.Stands ctx) :
    Upholds law base (takeOperation ctx here) := by
  refine builds_firstThatTakes fun attempt hattempt => ?_
  obtain ⟨form, hform, rfl⟩ := List.mem_map.mp hattempt
  simp only [operationForms, List.mem_cons, List.not_mem_nil, or_false] at hform
  rcases hform with rfl | rfl | rfl | rfl | rfl | rfl | rfl | rfl | rfl | rfl | rfl | rfl | rfl
  · exact builds_takeInflate hhere
  · exact builds_takeInflateContent hhere
  · exact builds_takeFindInView hhere
  · exact builds_takeFindInWindow hhere
  · exact builds_takeFindByPlace
  · exact builds_takeSetContent
  · exact builds_takeAddChild
  · exact builds_takeSetId hhere
  · exact builds_takeSetListener hhere
  · exact builds_takeAddMenuItem
  · exact builds_takeInflateMenu hhere
  · exact builds_takeGetTabHost
  · exact builds_takeGetListView

end WidgetFlow.Wiring
