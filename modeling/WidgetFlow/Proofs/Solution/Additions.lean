import WidgetFlow.Proofs.Solution.Moves

/-!
# Additions

Resolving an operation reports whether anything is new, and the passes over the operations go on
until nothing is. `Reported` says what a part does whose reports are true: it is made of moves, if
it reports no change then the state is as it was and what the part is for has been done, and if it
reports a change then the state has got one more fact. This passes from the rounds of a loop to the
loop (`runs_loop`).

Here it is shown for views that are put into windows and into each other and that get identifiers.
Such parts stop by themselves only if something is put into itself, and in a tidy state nothing is.
-/

namespace WidgetFlow.Solving

open Analysis FlowGraph

variable {ctx : Context} {op view : NodeId} {s middle t old new : Progress Notes}

/-! ## Reports -/

/-- What a part does that tells truly whether it changes anything. Whether the paths are stale may
depend on what has been reported. -/
structure Reported (ctx : Context) (stale : Bool → Bool) (settled : Progress Notes → Prop)
    (s : Progress Notes) (changed : Bool) (t : Progress Notes) : Prop where
  moves : ∀ before, Moves ctx ⟨s, stale before⟩ ⟨t, stale (before || changed)⟩
  still : changed = false → Still s t ∧ settled t
  gains : changed = true → Gains s t

/-- The paths are never stale. -/
abbrev traced : Bool → Bool := fun _ => false

namespace Reported

variable {stale : Bool → Bool} {settled settled' : Progress Notes → Prop} {changed more : Bool}

theorem advances (h : Reported ctx stale settled s changed t) : Advances s t :=
  (h.moves false).advances

theorem tidy (h : Reported ctx stale settled s changed t) (hs : Tidy ctx s) :
    Tidy ctx t :=
  (h.moves false).tidy hs

/-- Nothing has been done, and nothing had to be. -/
theorem idle (h : settled s) : Reported ctx stale settled s false s := by
  refine ⟨fun before => ?_, fun _ => ⟨refl_of Still s, h⟩, nofun⟩
  rw [Bool.or_false]

theorem of_change (hchange : Change ctx s t) (hs : Tidy ctx s)
    (hstill : changed = false → Still s t ∧ settled t)
    (hgains : changed = true → Gains s t) :
    Reported ctx traced settled s changed t :=
  ⟨fun _ => .single (hchange.step hs false), hstill, hgains⟩

theorem weaken (h : Reported ctx stale settled s changed t)
    (hsettled : Still s t → settled t → settled' t) :
    Reported ctx stale settled' s changed t :=
  { h with still := fun hchanged => ⟨(h.still hchanged).1, (h.still hchanged).elim hsettled⟩ }

/-- A change before that does not matter. -/
theorem before {first : Progress Notes} (hchange : Change ctx first s) (hfirst : Tidy ctx first)
    (hstill : Still first s) (h : Reported ctx stale settled s changed t) :
    Reported ctx stale settled first changed t where
  moves before := .head (hchange.step hfirst _) (h.moves before)
  still hchanged := (h.still hchanged).imp_left (trans_of Still hstill)
  gains hchanged := (h.gains hchanged).before hstill.advances

/-- Two reports, one after the other. What the first part has done has to survive a second one that
changes nothing. -/
theorem or (h : Reported ctx stale settled s changed middle)
    (h' : Reported ctx stale settled' middle more t)
    (hstill : Still middle t → settled middle → settled t) :
    Reported ctx stale (fun st => settled st ∧ settled' st) s (changed || more)
      t where
  moves before := (h.moves before).trans (Bool.or_assoc .. ▸ h'.moves (before || changed))
  still hreports := by
    obtain ⟨hchanged, hmore⟩ := Bool.or_eq_false_iff.mp hreports
    obtain ⟨hmiddle, hsettled⟩ := h.still hchanged
    obtain ⟨ht, hsettled'⟩ := h'.still hmore
    exact ⟨trans_of Still hmiddle ht, hstill ht hsettled, hsettled'⟩
  gains hreports := by
    rcases Bool.or_eq_true_iff.mp hreports with hchanged | hmore
    · exact (h.gains hchanged).after h'.advances
    · exact (h'.gains hmore).before h.advances

end Reported

/-! ## Loops -/

section Loops

variable {stale : Bool → Bool}

/-- A loop over rounds that report truly does so too. What one round has done has to survive rounds
that change nothing. -/
theorem runs_loop {α : Type} (elements : List α) (step : α → Solving Bool)
    {done : α → Progress Notes → Prop}
    (hlasting : ∀ e old new, Still old new → done e old → done e new)
    (hs : Tidy ctx s)
    (hstep : ∀ e ∈ elements, ∀ st, Advances s st → Tidy ctx st →
      Runs (step e) st (Reported ctx stale (done e) st)) :
    Runs
      (elements.foldlM (fun changed e => do
        let more ← step e
        pure (changed || more)) false) s
      (Reported ctx stale (fun st => ∀ e ∈ elements, done e st) s) := by
  -- the report so far is carried along, so the claim is made for every first report
  suffices hloop : ∀ changed, Runs (elements.foldlM (fun changed e => do
        let more ← step e
        pure (changed || more)) changed) s fun changed' t =>
          ∃ more, changed' = (changed || more) ∧
            Reported ctx stale (fun st => ∀ e ∈ elements, done e st) s more
              t by
    refine (hloop false).weaken ?_
    rintro _ t ⟨more, rfl, ht⟩
    exact ht
  induction elements generalizing s with
  | nil => exact fun changed => .pure ⟨false, (Bool.or_false changed).symm, .idle (by simp)⟩
  | cons first rest ih =>
    intro changed
    rw [List.foldlM_cons, bind_assoc]
    have hfirst := hstep first List.mem_cons_self s (refl_of Advances s) hs
    refine hfirst.bind fun more middle hmiddle => ?_
    rw [pure_bind]
    have hrest := ih (hmiddle.tidy hs) (fun e helement st hstate =>
      hstep e (List.mem_cons_of_mem _ helement) st
        (trans_of Advances hmiddle.advances hstate)) (changed || more)
    refine hrest.weaken ?_
    rintro _ t ⟨others, rfl, ht⟩
    refine ⟨more || others, Bool.or_assoc .., ?_⟩
    refine (hmiddle.or ht (hlasting first middle t)).weaken fun _ hdone => ?_
    exact List.forall_mem_cons.mpr hdone

end Loops

/-! ## Pairs -/

section Pairs

variable {stale : Bool → Bool} {step : NodeId → NodeId → Solving Bool}
variable {done : NodeId → NodeId → Progress Notes → Prop}
variable {firsts seconds : Solution → NodeRelation}

theorem mem_pairs {firsts seconds : List NodeId} {first second : NodeId} :
    (first, second) ∈ firsts.flatMap (fun first => seconds.map (first, ·)) ↔
      first ∈ firsts ∧ second ∈ seconds := by
  simp

def Lasting (done : NodeId → NodeId → Progress Notes → Prop) : Prop :=
  ∀ first second old new, Still old new → done first second old → done first second new

def PairsDone (firsts seconds : Solution → NodeRelation)
    (done : NodeId → NodeId → Progress Notes → Prop) (op : NodeId) (st : Progress Notes) :
    Prop :=
  ∀ first second, (firsts st.notes.solution).holds op first →
    (seconds st.notes.solution).holds op second → done first second st

/-- A relation of the solution that only grows. -/
structure Column (relation : Solution → NodeRelation) : Prop where
  within : ∀ {old new : Notes}, old.Grows new →
    (relation old.solution).Within (relation new.solution)
  same : ∀ {old new : Solution}, old.Same new → (relation old).Same (relation new)

theorem column_windows : Column Solution.windows :=
  ⟨fun h => h.windows_eq ▸ refl_of Relation.Within _, fun h => h.windows⟩

theorem column_values (i : Inlet) : Column i.values :=
  ⟨fun h => h.values i, fun h => h.values i⟩

theorem runs_eachPair (hfirsts : Column firsts) (hseconds : Column seconds)
    (hlasting : Lasting done) (hs : Tidy ctx s)
    (hstep : ∀ first second st, Advances s st → Tidy ctx st →
      (firsts st.notes.solution).holds op first →
        (seconds st.notes.solution).holds op second →
          Runs (step first second) st (Reported ctx stale (done first second) st)) :
    Runs (forPairs ((firsts s.notes.solution).image op)
      ((seconds s.notes.solution).image op) step) s
      (Reported ctx stale (PairsDone firsts seconds done op) s) := by
  refine (runs_loop _ (fun pair : NodeId × NodeId => step pair.1 pair.2)
    (fun pair => hlasting pair.1 pair.2) hs fun pair hpair st hadvances hstate => ?_).weaken
      fun changed t ht => ht.weaken ?_
  -- what the relations had at first they still have
  · obtain ⟨hfirst, hsecond⟩ := mem_pairs.mp hpair
    exact hstep pair.1 pair.2 st hadvances hstate
      (hfirsts.within hadvances.2 op _ (Relation.mem_image.mp hfirst))
      (hseconds.within hadvances.2 op _ (Relation.mem_image.mp hsecond))
  -- the lists are those of the first state, which has the same pairs as the final one
  · intro hsame hdone first second hfirst hsecond
    have hfirst := (hfirsts.same hsame.same op first).mpr hfirst
    have hsecond := (hseconds.same hsame.same op second).mpr hsecond
    exact hdone (first, second)
      (mem_pairs.mpr ⟨Relation.mem_image.mpr hfirst, Relation.mem_image.mpr hsecond⟩)

theorem rests_eachPair (hlasting : Lasting done)
    (hstep : ∀ first second st, done first second st → Rests (step first second) st)
    (h : PairsDone firsts seconds done op s) :
    Rests (forPairs ((firsts s.notes.solution).image op)
      ((seconds s.notes.solution).image op) step) s := by
  refine Rests.foldlM _ (fun pair : NodeId × NodeId => step pair.1 pair.2)
    fun st hstate pair hpair => ?_
  obtain ⟨hfirst, hsecond⟩ := mem_pairs.mp hpair
  have hdone := h pair.1 pair.2 (Relation.mem_image.mp hfirst) (Relation.mem_image.mp hsecond)
  exact hstep pair.1 pair.2 st (hlasting pair.1 pair.2 s st hstate hdone)

theorem PairsDone.still (hfirsts : Column firsts) (hseconds : Column seconds)
    (hlasting : Lasting done) (hsame : Still old new) (h : PairsDone firsts seconds done op old) :
    PairsDone firsts seconds done op new := by
  intro first second hfirst hsecond
  refine hlasting first second old new hsame (h first second ?_ ?_)
  · exact (hfirsts.same hsame.same op first).mpr hfirst
  · exact (hseconds.same hsame.same op second).mpr hsecond

end Pairs

/-! ## Containment -/

theorem runs_addWindowRoot (win root : NodeId) (s : Progress Notes) :
    Runs (addWindowRoot win root) s fun _ t => t.graph = s.graph ∧
      Recorded (s.graph.kind win) win root s.notes t.notes := by
  refine .getGraph ?_
  split
  next owner howner =>
    refine .modifyNotes ⟨rfl, rfl, fun key root => ?_, fun key root => ?_⟩
    · rw [Relation.holds_add, howner]
      simp
    · simp [howner]
  next hdialog =>
    refine .modifyNotes ⟨rfl, rfl, fun key root => ?_, fun key root => ?_⟩
    · simp [hdialog]
    · rw [Relation.holds_add, hdialog]
      simp
  next hactivity hdialog =>
    refine .violation (fun policy => ⟨rfl, rfl, fun key root => ?_, fun key root => ?_⟩) _
    · refine (or_iff_right ?_).symm
      rintro ⟨_, _, owner, howner⟩
      exact hactivity owner howner
    · refine (or_iff_right ?_).symm
      rintro ⟨_, _, owner, site, cancelable, howner⟩
      exact hdialog owner site cancelable howner

/-- A view becomes the content of a window unless it is. -/
theorem does_setRoot {can : AnalysisError → Prop} {win : NodeId}
    (hcan : view = win → ∀ n, can (.selfContainment n)) (s : Progress Notes) :
    Does can (setRoot win view) s fun changed t =>
      if changed then Rooted win view s t
      else t = s ∧ s.graph.Contains win view := by
  refine .getGraph ?_
  split
  next hchild => exact .pure ⟨rfl, mem_children.mp (List.contains_iff_mem.mp hchild)⟩
  next hchild =>
    have hfresh : ¬ s.graph.Contains win view := fun h =>
      hchild (List.contains_iff_mem.mpr (mem_children.mpr h))
    have hlinks : Does can (addLink view win) s fun _ middle =>
        ∃ added g, s.graph.addLink view win = .ok (added, g) ∧
          middle = { s with graph := g } :=
      .of_addLink hcan fun added g hlink => ⟨added, g, hlink, rfl⟩
    refine hlinks.bind ?_
    rintro _ _ ⟨added, g, hlink, rfl⟩
    refine (Does.of_runs (runs_addWindowRoot win view _)).bind fun _ t ht => .pure ?_
    obtain ⟨hgraph, hrecorded⟩ := ht
    rw [kind_addLink hlink] at hrecorded
    exact ⟨hrecorded, hfresh, added, hgraph ▸ hlink⟩

theorem rests_setRoot {win : NodeId} (h : s.graph.Contains win view) :
    Rests (setRoot win view) s := by
  refine .getGraph ?_
  rw [if_pos (List.contains_iff_mem.mpr (mem_children.mpr h))]
  exact .pure s

/-- A view is put into another one. -/
theorem runs_addChild (p c : NodeId) (s : Progress Notes) :
    Runs (addChild p c) s fun changed t =>
      (changed = false ∧ t = s ∧ p = c) ∨ p ≠ c ∧
        ∃ g, s.graph.addLink c p = .ok (changed, g) ∧
          t = { s with graph := g } := by
  unfold addChild
  split
  next heq => exact .pure (.inl ⟨rfl, rfl, heq⟩)
  next hne =>
    exact .of_addLink (fun heq => absurd heq.symm hne) fun added g hlink =>
      .inr ⟨hne, g, hlink, rfl⟩

theorem rests_addChild {p c : NodeId}
    (h : p ≠ c → s.graph.Contains p c) :
    Rests (addChild p c) s := by
  unfold addChild
  split
  · exact .pure s
  next hne =>
    refine .getGraph ?_
    rw [addLink_of_mem (Ne.symm hne) (h hne)]
    exact ⟨s, rfl, refl_of Still s⟩

def Inside (win view : NodeId) (st : Progress Notes) : Prop :=
  st.graph.Contains win view

def InsideOther (p c : NodeId) (st : Progress Notes) : Prop :=
  p ≠ c → st.graph.Contains p c

theorem lasting_inside : Lasting Inside := by
  intro win view old new hstill h
  rwa [Inside, hstill.graph_eq]

theorem lasting_insideOther : Lasting InsideOther := by
  intro p c old new hstill h
  rwa [InsideOther, hstill.graph_eq]

/-- All views that a window is to show are inside it. -/
abbrev ContentSet : NodeId → Progress Notes → Prop :=
  PairsDone Solution.windows Solution.parameters Inside

/-- All views that are to be added to others are inside them. -/
abbrev ChildrenAdded : NodeId → Progress Notes → Prop :=
  PairsDone Solution.receivers Solution.parameters InsideOther

theorem op?_advances {found : Op} (hadvances : Advances s middle)
    (hop : s.graph.op? op = some found) : middle.graph.op? op = some found :=
  (hadvances.1.op?_eq op).trans hop

section Resolving

variable {found : Op} (hs : Tidy ctx s) (hop : s.graph.op? op = some found)
include hs hop

theorem runs_resolveSetContent (hkind : found.kind = .setContent) :
    Runs (resolveSetContent op) s (Reported ctx traced (ContentSet op) s) := by
  refine does_getSolution (runs_eachPair column_windows (column_values .parameter) lasting_inside
    hs fun win view st hadvances hstate hwindow hview => ?_)
  -- no window is put into itself, because windows get only what is no window
  have hne : view ≠ win := by
    rintro rfl
    have hisWindow := hstate.filtered.windows op view hwindow
    rw [(hstate.hasPart .parameter nofun hview).2] at hisWindow
    exact absurd hisWindow Bool.false_ne_true
  refine (does_setRoot (fun heq => absurd heq hne) st).weaken fun changed t ht => ?_
  cases changed with
  | false =>
    obtain ⟨rfl, hinside⟩ := ht
    exact .idle hinside
  | true =>
    have hrooted : Rooted win view st t := ht
    obtain ⟨added, hlink⟩ := hrooted.linked
    exact .of_change (.root (op?_advances hadvances hop) hkind hwindow hview hrooted) hstate nofun
      fun _ => ⟨.inside view win, hrooted.fresh, contains_addLink hlink⟩

theorem runs_resolveAddChild (hkind : found.kind = .addChild) :
    Runs (resolveAddChild op) s (Reported ctx traced (ChildrenAdded op) s) := by
  refine does_getSolution (runs_eachPair (column_values .receiver) (column_values .parameter)
    lasting_insideOther hs fun p c st hadvances hstate hparent hchild => ?_)
  refine (runs_addChild p c st).weaken ?_
  rintro changed t (⟨rfl, rfl, heq⟩ | ⟨hne, g, hlink, rfl⟩)
  · exact .idle fun hne => absurd heq hne
  · rcases addLink_ok hlink with ⟨rfl, rfl, hold⟩ | ⟨rfl, _, hnew⟩
    · exact .idle fun _ => hold
    · exact .of_change (.child (op?_advances hadvances hop) hkind hparent hchild hne hlink rfl)
        hstate nofun fun _ => ⟨.inside c p, hnew, contains_addLink hlink⟩

end Resolving

theorem rests_resolveSetContent (h : ContentSet op s) : Rests (resolveSetContent op) s :=
  .getSolution <| rests_eachPair lasting_inside (fun _ _ _ => rests_setRoot) h

theorem rests_resolveAddChild (h : ChildrenAdded op s) : Rests (resolveAddChild op) s :=
  .getSolution <| rests_eachPair lasting_insideOther (fun _ _ _ => rests_addChild) h

/-! ## Identifiers -/

theorem rests_giveId (id : NodeId) (h : (s.graph.idOf? view).isSome) :
    Rests (giveId id view) s := by
  refine .getGraph ?_
  rw [if_pos h]
  exact .pure s

theorem runs_reportOthers (op id : NodeId) (others : List NodeId) (s : Progress Notes) :
    Runs (reportOthers op id others) s fun _ t => t.graph = s.graph ∧
      t.notes = { s.notes with flagged := t.notes.flagged } := by
  unfold reportOthers
  split
  · have hflag : Runs (flag op id) s fun _ middle => middle.graph = s.graph ∧
        middle.notes = { s.notes with flagged := middle.notes.flagged } :=
      does_flag ⟨rfl, rfl⟩
    refine hflag.bind fun _ middle hmiddle => ?_
    split
    · exact .getGraph (.gap (fun _ => hmiddle) _)
    · exact .pure hmiddle
  · exact .pure ⟨rfl, rfl⟩

theorem ok_reportOthers (op id : NodeId) (others : List NodeId) (s : Progress Notes) :
    ∃ t, (reportOthers op id others).outcome s = (.ok (), t) := by
  cases others with
  | nil => exact ⟨s, rfl⟩
  | cons first rest =>
    have hflag : (flag op id).outcome s = (.ok (!s.notes.flagged.holds op id), _) := rfl
    rw [reportOthers, if_pos (by rfl), outcome_bind, hflag]
    cases s.notes.flagged.holds op id with
    | true => exact ⟨_, rfl⟩
    | false => exact ⟨_, rfl⟩

/-- A state goes on without any change if only the passes are counted or something is reported. -/
theorem still_of_note (hgraph : t.graph = s.graph)
    (hnotes : t.notes = { s.notes with
      solution := { s.notes.solution with iterations := t.notes.solution.iterations }
      flagged := t.notes.flagged }) : Still s t := by
  refine ⟨hgraph, ?_, ?_, ?_⟩ <;> rw [hnotes]
  · exact { refl_of Notes.Grows s.notes with }
  · exact { Solution.Same.refl s.notes.solution with }

/-- All views that an operation is to name have identifiers. -/
def Named (op : NodeId) (st : Progress Notes) : Prop :=
  givenIds st.notes.solution op ≠ [] → ∀ view, st.notes.solution.receivers.holds op view →
    (st.graph.idOf? view).isSome

theorem givenIds_still (h : Still old new) :
    givenIds new.notes.solution op = givenIds old.notes.solution op := by
  unfold givenIds
  rw [h.grows.viewIds_eq, h.grows.layoutIds_eq]

theorem Named.still (hstill : Still old new) (h : Named op old) : Named op new := by
  intro hids view hview
  rw [givenIds_still hstill] at hids
  rw [hstill.graph_eq]
  exact h hids view ((hstill.same.receivers op view).mpr hview)

section Naming

variable {found : Op} (hop : s.graph.op? op = some found) (hkind : found.kind = .setId)
include hop hkind

/-- A view gets an identifier unless it has one. -/
theorem reported_giveId (id : NodeId) (hs : Tidy ctx s)
    (hview : s.notes.solution.receivers.holds op view) :
    Runs (giveId id view) s
      (Reported ctx traced (fun st => (st.graph.idOf? view).isSome) s) := by
  refine .getGraph ?_
  split
  next hname => exact .pure (.idle hname)
  next hname =>
    have hnone : s.graph.idOf? view = none := by simpa using hname
    have hobject := (hs.hasPart .receiver nofun hview).1
    have hname : ((setId view id s.graph).idOf? view).isSome := by
      rw [idOf?_setId (lt_size_of_isObject hobject)]
      rfl
    refine Does.bind (.modifyGraph rfl) fun _ t ht =>
      .pure (.of_change (.name hop hkind hview hnone ht) hs nofun fun _ => ?_)
    subst ht
    refine ⟨.named view, ?_, hobject.mono (grafts_setId view id).toExtends, hname⟩
    rintro ⟨_, hsome⟩
    simp [hnone] at hsome

theorem runs_resolveSetId (hs : Tidy ctx s) :
    Runs (resolveSetId op) s (Reported ctx traced (Named op) s) := by
  refine does_getSolution ?_
  split
  next hids => exact .pure (.idle fun h => absurd hids h)
  next id others hids =>
    refine (runs_reportOthers op id others s).bind fun _ middle hmiddle => ?_
    have hnotes : middle.notes = { s.notes with
        solution := { s.notes.solution with iterations := middle.notes.solution.iterations }
        flagged := middle.notes.flagged } := by
      rw [hmiddle.2]
    have hchange : Change ctx s middle := .note hmiddle.1 hnotes
    have hlasting : ∀ (view : NodeId) (old new : Progress Notes), Still old new →
        (old.graph.idOf? view).isSome → (new.graph.idOf? view).isSome :=
      fun _ _ _ hstill h => hstill.graph_eq ▸ h
    have hloop := runs_loop (s.notes.solution.receivers.image op) (giveId id) hlasting
      (hchange.tidy hs) fun view hview st hadvances hstate => by
        have hadvances := trans_of Advances hchange.advances hadvances
        exact reported_giveId (op?_advances hadvances hop) hkind id hstate
          (hadvances.2.values .receiver op view (Relation.mem_image.mp hview))
    refine hloop.weaken fun changed t ht =>
      (ht.before hchange hs (still_of_note hmiddle.1 hnotes)).weaken ?_
    exact fun hstill hdone _ view hview => hdone view
      (Relation.mem_image.mpr ((hstill.same.receivers op view).mpr hview))

end Naming

theorem rests_resolveSetId (h : Named op s) : Rests (resolveSetId op) s := by
  refine .getSolution ?_
  cases hids : givenIds s.notes.solution op with
  | nil => exact .pure s
  | cons id others =>
    obtain ⟨middle, houtcome⟩ := ok_reportOthers op id others s
    obtain ⟨hgraph, hnotes⟩ := (runs_reportOthers op id others s).gives _ _ houtcome
    have hmiddle : Still s middle := still_of_note hgraph (by rw [hnotes])
    have hloop : Rests _ middle := Rests.foldlM (s.notes.solution.receivers.image op)
      (giveId id) fun st hstate view hview => rests_giveId id <| by
        rw [hstate.graph_eq, hmiddle.graph_eq]
        exact h (by simp [hids]) view (Relation.mem_image.mp hview)
    obtain ⟨t, hloop, ht⟩ := hloop
    refine ⟨t, ?_, trans_of Still hmiddle ht⟩
    rw [outcome_bind, houtcome]
    exact hloop

end WidgetFlow.Solving
