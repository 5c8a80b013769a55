import WidgetFlow.Proofs.Wiring.Operations

/-!
# Building calls, assignments and arrays

The edges of calls, assignments and arrays lead from one node of a value to another. A call that is
bound to a method gives it its receiver, its arguments up to the first parameter that the method does
not read, and, if it reads them all, takes what it returns (`BindsCall`).
-/

namespace WidgetFlow

open FlowGraph Analysis

/-- A call is bound to a method. -/
structure BindsCall (ctx : Context) (here : CallSite) (callee : MethodId) (g : FlowGraph) :
    Prop where
  receiver : ∀ base this, here.call.isInstance → here.call.base = some base →
    (ctx.scene.method callee).thisVar? = some this → ctx.carriesFlow callee this →
      g.Connects (.var (.named here.method base)) (.var (.named callee this))
  args : ∀ position actual formal key, here.call.args[position]? = some actual →
    (∀ earlier < position, ((ctx.scene.method callee).paramVar? earlier).isSome) →
      (ctx.scene.method callee).paramVar? position = some formal →
        ctx.carriesFlow callee formal → ctx.valueKey? here.site actual = some key →
          g.Connects key (.var (.named callee formal))
  /-- The node of what a method returns is that of its first statement. -/
  result : ∀ result v key,
    (∀ position < here.call.args.length,
      ((ctx.scene.method callee).paramVar? position).isSome) →
      here.result? = some result → ctx.carriesFlow here.method result →
        v ∈ (ctx.scene.method callee).returnValues →
          ctx.valueKey? { method := callee, index := 0 } v = some key →
            g.Connects key (.var (.named here.method result))

theorem BindsCall.mono {ctx : Context} {here : CallSite} {callee : MethodId} {old new : FlowGraph}
    (hg : Extends old new) (h : BindsCall ctx here callee old) : BindsCall ctx here callee new where
  receiver base this hinstance hbase hthis hflow :=
    (h.receiver base this hinstance hbase hthis hflow).mono hg
  args position actual formal key hactual hearlier hformal hflow hkey :=
    (h.args position actual formal key hactual hearlier hformal hflow hkey).mono hg
  result res v key hparams hresult hflow hvalue hkey :=
    (h.result res v key hparams hresult hflow hvalue hkey).mono hg

namespace Wiring

variable {base : FlowGraph} {ctx : Context} {permit : Permit} {law : Law Notes}
  [Walks ctx permit law] {here : CallSite} {callee : MethodId} {site : StmtId}
  {v dst : Value}

include permit

theorem builds_bindReceiver :
    Ensures law base (bindReceiver ctx here callee) fun g _ => ∀ name this,
      here.call.isInstance → here.call.base = some name →
        (ctx.scene.method callee).thisVar? = some this → ctx.carriesFlow callee this →
          g.Connects (.var (.named here.method name)) (.var (.named callee this)) := by
  unfold bindReceiver
  split
  next => exact .pure fun _ _ => by simp_all
  split
  case h_2 => exact .pure fun _ _ => by simp_all
  next name hname =>
  split
  case h_2 => exact .pure fun _ _ => by simp_all
  next this hthis =>
  split
  case isFalse => exact .pure fun _ _ => by simp_all
  refine locates_varNode.bind fun actual g _ hactual => ?_
  refine locates_varNode.bind fun formal g hg hformal => ?_
  have hgoal := (HasHolder.of_find? hformal).hasGoal
  refine (builds_connects _ (hg.find?_eq hactual) hformal hgoal).weaken ?_
  intro _ _ _ hedge other other' _ hother hother' _
  cases hname.symm.trans hother
  cases hthis.symm.trans hother'
  exact hedge

/-- An argument flows to the parameter at its position, if the method reads those before it. -/
def BindsArgs (ctx : Context) (here : CallSite) (callee : MethodId) (position : Nat)
    (args : List Value) (g : FlowGraph) : Prop :=
  ∀ offset actual formal key, args[offset]? = some actual →
    (∀ earlier < offset, ((ctx.scene.method callee).paramVar? (position + earlier)).isSome) →
      (ctx.scene.method callee).paramVar? (position + offset) = some formal →
        ctx.carriesFlow callee formal → ctx.valueKey? here.site actual = some key →
          g.Connects key (.var (.named callee formal))

theorem builds_bindArgs {position : Nat} {args : List Value}
    (h : ∀ actual ∈ args, ctx.Places here.site actual) :
    Ensures law base (bindArgs ctx here callee position args) fun g read =>
      BindsArgs ctx here callee position args g ∧
        ((∀ offset < args.length,
          ((ctx.scene.method callee).paramVar? (position + offset)).isSome) → read) := by
  induction args generalizing base position with
  | nil => exact .pure fun _ _ => ⟨by simp [BindsArgs], fun _ => rfl⟩
  | cons actual rest ih =>
    have hrest := fun actual hactual => h actual (List.mem_cons_of_mem _ hactual)
    unfold bindArgs
    split
    case h_2 hnone =>
      refine .pure fun _ _ => ⟨fun offset _ formal _ _ hearlier hformal => ?_, fun hall => ?_⟩
      · cases offset with
        | zero => exact absurd hformal (hnone formal)
        | succ offset =>
          have hsome := Option.isSome_iff_exists.mp (hearlier 0 (Nat.succ_pos _))
          exact absurd hsome.choose_spec (hnone _)
      · have hsome := Option.isSome_iff_exists.mp (hall 0 (Nat.succ_pos _))
        exact absurd hsome.choose_spec (hnone _)
    next formal hformal =>
    extract_lets proceed
    have hshift : ∀ offset, position + 1 + offset = position + (offset + 1) := by omega
    -- what is known of the first argument stays while the others are bound
    have hproceed : ∀ g : FlowGraph, (∀ key, ctx.carriesFlow callee formal →
        ctx.valueKey? here.site actual = some key →
          g.Connects key (.var (.named callee formal))) →
        Ensures law g (proceed ()) fun t read =>
          BindsArgs ctx here callee position (actual :: rest) t ∧
            ((∀ offset < rest.length + 1,
              ((ctx.scene.method callee).paramVar? (position + offset)).isSome) → read) := by
      refine fun g hfirst => (ih hrest).weaken fun t read hg hbound => ?_
      simp only [BindsArgs, hshift] at hbound
      refine ⟨fun offset other name key hother hearlier hname hflow hkey => ?_, fun hall => ?_⟩
      · cases offset with
        | zero =>
          cases hother
          cases hformal.symm.trans hname
          exact (hfirst key hflow hkey).mono hg
        | succ offset =>
          exact hbound.1 offset other name key hother (fun earlier hlt =>
            hearlier (earlier + 1) (Nat.succ_lt_succ hlt)) hname hflow hkey
      · exact hbound.2 fun offset hoffset => hall (offset + 1) (Nat.succ_lt_succ hoffset)
    split
    next =>
      refine locates_varNode.bind fun n g _ hnode => ?_
      refine (locates_valueNode? (h actual List.mem_cons_self)).bind
        fun found g hg hfound => ?_
      have hnode := hg.find?_eq hnode
      rcases hfound.eq_or_exists with ⟨hkey, rfl⟩ | ⟨key, src, hkey, rfl, hsource⟩
      · exact hproceed g fun key _ hother => absurd (hkey.symm.trans hother) nofun
      · have hgoal := (HasHolder.of_find? hnode).hasGoal
        refine (builds_connects _ hsource hnode hgoal).bind fun _ g _ hedge => ?_
        exact hproceed g fun other _ hother =>
          Option.some.inj (hkey.symm.trans hother) ▸ hedge
    next hflow => exact hproceed base fun _ hother => absurd hother hflow

theorem builds_bindResult :
    Ensures law base (bindResult ctx here callee) fun g _ => ∀ res v key,
      here.result? = some res → ctx.carriesFlow here.method res →
        v ∈ (ctx.scene.method callee).returnValues →
          ctx.valueKey? { method := callee, index := 0 } v = some key →
            g.Connects key (.var (.named here.method res)) := by
  unfold bindResult
  split
  case h_2 => exact .pure fun _ _ => by simp_all
  next name hname =>
  split
  case isFalse hflow =>
    refine .pure fun _ _ other _ _ hother hflow' => ?_
    cases hname.symm.trans hother
    exact absurd hflow' hflow
  refine locates_varNode.bind fun res g _ hresult => ?_
  let made (g : FlowGraph) (v : Value) : Prop := ∀ key,
    ctx.valueKey? { method := callee, index := 0 } v = some key →
      g.Connects key (.var (.named here.method name))
  refine .weaken (.forM_each made (fun hg hmade key hkey => (hmade key hkey).mono hg)
    fun v hvalue => ?_) fun _ _ _ hmade other v key hother _ hvalue hkey =>
      Option.some.inj (hname.symm.trans hother) ▸ hmade v hvalue key hkey
  refine (locates_valueNode? (.of_returned hvalue)).bind fun returned g hg hreturned => ?_
  have hresult := hg.find?_eq hresult
  unfold made
  rcases hreturned.eq_or_exists with ⟨hkey, rfl⟩ | ⟨key, n, hkey, rfl, hfind⟩
  · exact .pure fun _ _ _ hother => absurd (hkey.symm.trans hother) nofun
  · refine (builds_connects _ hfind hresult (HasHolder.of_find? hresult).hasGoal).weaken ?_
    exact fun _ _ _ hedge other hother => Option.some.inj (hkey.symm.trans hother) ▸ hedge

theorem builds_bindCall (hhere : here.Stands ctx) :
    Ensures law base (bindCall ctx here callee) fun g _ =>
      (ctx.scene.method callee).isConcrete → BindsCall ctx here callee g := by
  unfold bindCall
  split
  case isFalse hconcrete => exact .pure fun _ _ hother => absurd hother hconcrete
  refine builds_bindReceiver.bind fun _ g _ hreceiver => ?_
  refine (builds_bindArgs fun actual hactual => .of_call hhere hactual).bind
    fun read g hg hargs => ?_
  simp only [BindsArgs, Nat.zero_add] at hargs
  have hbinds : ∀ {t : FlowGraph}, Extends g t → (∀ res v key,
      (∀ position < here.call.args.length,
        ((ctx.scene.method callee).paramVar? position).isSome) →
        here.result? = some res → ctx.carriesFlow here.method res →
          v ∈ (ctx.scene.method callee).returnValues →
            ctx.valueKey? { method := callee, index := 0 } v = some key →
              t.Connects key (.var (.named here.method res))) →
      BindsCall ctx here callee t := fun hmore hresult =>
    ⟨fun name this hinstance hname hthis hflow =>
      (hreceiver name this hinstance hname hthis hflow).mono (hg.trans hmore),
      fun position actual formal key hactual hearlier hformal hflow hkey =>
        (hargs.1 position actual formal key hactual hearlier hformal hflow hkey).mono hmore,
      hresult⟩
  split
  next =>
    exact builds_bindResult.weaken fun _ _ hmore hresult _ =>
      hbinds hmore fun res v key _ => hresult res v key
  next hread =>
    exact .pure fun _ hmore _ => hbinds hmore fun _ _ _ hparams => absurd (hargs.2 hparams) hread

theorem builds_wireRun {o : NodeId} (hobject : base.HasValue o) :
    Upholds law base (wireRun ctx site o v) := by
  unfold wireRun
  split
  case h_2 => exact .done _
  split
  case h_2 => exact .done _
  refine builds_thisNode?.bind fun this g hg hthis => ?_
  exact builds_connect? _ (hobject.mono hg) hthis

/-- What is assigned to is a place for values, unless values may flow to objects. -/
theorem locates_assignedNode? (hplaces : ctx.Places site dst)
    (h : Stmt.isTarget dst ∨ permit.loose) :
    Ensures law base (valueNode? ctx site dst) fun g n =>
      g.Located (ctx.valueKey? site dst) n ∧
        ∀ id, n = some id → g.HasGoal id ∨ permit.loose ∧ g.HasOpen id := by
  refine (locates_valueNode? hplaces).weaken fun g n _ hlocated => ⟨hlocated, ?_⟩
  rcases hlocated.eq_or_exists with ⟨_, rfl⟩ | ⟨key, found, hkey, rfl, hfind⟩
  · nofun
  · rintro id ⟨⟩
    rcases h with htarget | hloose
    · exact .inl (hasGoal_of_target htarget hkey hfind)
    · refine .inr ⟨hloose, .of_find? hfind fun number heq => ?_⟩
      exact ctx.valueKey?_ne_made number (heq ▸ hkey)

/-- An access to an array is noted for the node of a local. -/
theorem builds_noteAccess {array : String} {note : NodeId → Notes → Notes}
    (h : ∀ {g g' var} ns, FlowGraph.varNode (.named site.method array)
      (ctx.scene.varTy? site.method array) g = (var, g') →
        Step ctx permit (g, ns) (g', note var ns)) :
    Upholds law base (do
      let var ← ctx.varNode site.method array
      modifyNotes (note var)) := by
  let n := FlowGraph.varNode (.named site.method array) (ctx.scene.varTy? site.method array)
  change Upholds law base (act fun g ns => ((), (n g).2, note (n g).1 ns))
  exact ensures_step fun _ _ _ => ⟨h _ rfl, trivial⟩

/-- What is assigned flows to what it is assigned to. -/
theorem builds_wireAssign (hmethod : site.method ∈ walkedMethods ctx)
    (hstmt : ctx.scene.stmt? site = some (.assign dst v))
    (hcall : (Stmt.assign dst v).call? = none) (h : Stmt.isTarget dst ∨ permit.loose) :
    Ensures law base (wireAssign ctx site dst v) fun g _ =>
      (ctx.scene.valueTy? site.method dst).any Ty.carriesFlow → ∀ src key,
        ctx.valueKey? site v = some src → ctx.valueKey? site dst = some key →
          g.Connects src key := by
  unfold wireAssign
  split
  next hflow => exact .pure fun _ _ hcarries => by simp [hcarries] at hflow
  next hflow =>
  rw [Bool.not_eq_true', Bool.not_eq_false] at hflow
  split
  · refine (builds_noteAccess fun ns hvar =>
      .write ⟨hmethod, hstmt, hcall, hflow⟩ hvar ns).weaken fun _ _ _ _ _ _ _ _ hkey => ?_
    cases hkey
  next hwrite =>
    refine (builds_noteAccess fun ns hvar => .read ⟨hmethod, hstmt,
      fun base index => hwrite base index, hflow⟩ hvar ns).weaken fun _ _ _ _ _ _ _ hkey => ?_
    cases hkey
  · obtain ⟨htarget, hvalue⟩ := Context.Places.of_assign hstmt
    refine (locates_assignedNode? htarget h).bind fun targetNode g _ htarget => ?_
    refine (locates_valueNode? hvalue).bind fun sourceNode g hg hsource => ?_
    obtain ⟨hlocated, htarget⟩ := htarget
    rcases hlocated.eq_or_exists with ⟨hnone, rfl⟩ | ⟨key, n, hkey, rfl, hnode⟩
    · exact .pure fun _ _ _ _ _ _ hkey => absurd (hnone.symm.trans hkey) nofun
    rcases hsource.eq_or_exists with ⟨hnone, rfl⟩ | ⟨src, o, hsource', rfl, hobject⟩
    · exact .pure fun _ _ _ _ _ hkey => absurd (hnone.symm.trans hkey) nofun
    have htarget := (htarget _ rfl).imp (·.mono hg) (And.imp_right (·.mono hg))
    have hvalue : g.HasValue o := .of_find? hobject
    have hnode := hg.find?_eq hnode
    have hconnect : Ensures law g (connect o n (some site)) fun t _ =>
        t.Connects src key := by
      change Ensures law g (act fun g ns =>
        ((), (g.addEdge o n (some site)).2, ns)) _
      refine ensures_step fun s hbase _ => ?_
      have hg := hbase.trans (extends_addEdge o n (some site))
      exact ⟨.edge _ (hvalue.mono hbase)
        (htarget.imp (·.mono hbase) (And.imp_right (·.mono hbase))) _, o, n,
        hg.find?_eq hobject, hg.find?_eq hnode, hasEdge_addEdge ..⟩
    refine hconnect.bind fun _ t ht hedge => ?_
    refine (builds_wireRun (hvalue.mono ht)).weaken
      fun _ _ hlast _ _ other other' hother hother' => ?_
    cases hkey.symm.trans hother'
    cases hsource'.symm.trans hother
    exact hedge.mono hlast

/-- A value that has been written flows to what is read. -/
theorem builds_connectRead {read : StmtId} {written : NodeId} {key : NodeKey}
    (hwritten : base.find? key = some written) :
    Ensures law base (do connect? written (← definedNode? ctx read) none) fun g _ => ∀ name,
      (ctx.scene.stmt? read).bind Stmt.definedVar? = some name →
        g.Connects key (.var (.named read.method name)) := by
  refine locates_definedNode?.bind fun defined g hg hdefined => ?_
  have hwritten := hg.find?_eq hwritten
  rcases hdefined.eq_or_exists with ⟨hkey, rfl⟩ | ⟨_, n, hkey, rfl, hfind⟩
  · refine (builds_connect? none (.of_find? hwritten) (by nofun)).weaken
      fun _ _ _ _ name hname => ?_
    simp [hname] at hkey
  · obtain ⟨name, hname, rfl⟩ := Option.map_eq_some_iff.mp hkey
    refine (builds_connects none hwritten hfind (HasHolder.of_find? hfind).hasGoal).weaken ?_
    exact fun _ _ _ hedge other hother => Option.some.inj (hname.symm.trans hother) ▸ hedge

/-- What is written flows to what is read. -/
theorem builds_connectAccesses (writes reads : List StmtId) :
    Ensures law base (writes.forM fun write => do
      let some (.assign _ v) := ctx.scene.stmt? write | return
      let some written ← valueNode? ctx write v | return
      reads.forM fun read => do
        connect? written (← definedNode? ctx read) none) fun g _ => ∀ write ∈ writes,
          ∀ dst v key, ctx.scene.stmt? write = some (.assign dst v) →
            ctx.valueKey? write v = some key → ∀ read ∈ reads, ∀ name,
              (ctx.scene.stmt? read).bind Stmt.definedVar? = some name →
                g.Connects key (.var (.named read.method name)) := by
  refine .forM_each (fun g write => ∀ dst v key,
    ctx.scene.stmt? write = some (.assign dst v) → ctx.valueKey? write v = some key →
      ∀ read ∈ reads, ∀ name, (ctx.scene.stmt? read).bind Stmt.definedVar? = some name →
        g.Connects key (.var (.named read.method name)))
    (fun hg h dst v key hstmt hkey read hread name hname =>
      (h dst v key hstmt hkey read hread name hname).mono hg) fun write _ => ?_
  split
  case h_2 hother => exact .pure fun _ _ dst v _ hstmt => absurd hstmt (hother dst v)
  next dst v hstmt =>
  refine (locates_valueNode? (Context.Places.of_assign hstmt).2).bind
    fun written g _ hwritten => ?_
  rcases hwritten.eq_or_exists with ⟨hkey, rfl⟩ | ⟨key, n, hkey, rfl, hfind⟩
  · refine .pure fun _ _ _ other _ hother hkey' => ?_
    cases hstmt.symm.trans hother
    exact absurd (hkey.symm.trans hkey') nofun
  · refine .weaken (.forM_each (fun g read => ∀ name,
      (ctx.scene.stmt? read).bind Stmt.definedVar? = some name →
        g.Connects key (.var (.named read.method name)))
      (fun hg h name hname => (h name hname).mono hg) fun read _ => builds_connectRead hfind)
      fun _ _ _ hreads _ other _ hother hkey' => ?_
    cases hstmt.symm.trans hother
    cases hkey.symm.trans hkey'
    exact hreads

theorem builds_wireArray {alloc : NodeId} : Upholds law base (wireArray ctx alloc) := by
  unfold wireArray
  refine Ensures.getGraph.andThen fun g => ?_
  split
  case isTrue => exact .done _
  refine Ensures.getNotes.andThen fun ns => ?_
  exact (builds_connectAccesses _ _).upholds

theorem builds_wireArrays : Upholds law base (wireArrays ctx) :=
  Ensures.getGraph.andThen fun _ => .forM fun _ _ => builds_wireArray

end Wiring

end WidgetFlow
