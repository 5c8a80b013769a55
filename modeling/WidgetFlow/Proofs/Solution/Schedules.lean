import WidgetFlow.Proofs.Solution.Comparison
import WidgetFlow.Proofs.Solution.Termination

/-!
# Passes in any order

`Passes` are passes over the operations, each in an order of its own, until one of them reports no
change. Where violations are recorded, no pass fails (`runs_passIn`), and there is an end to the
passes (`exists_passes`). If every pass visits all
operations, then no operation has anything left to do in the end (`Passes.settled`). The passes of
the solver itself are those in the order of creation (`outcome_settle_iff`).
-/

namespace WidgetFlow.Solving

open Analysis FlowGraph

variable {ctx : Context} {op : NodeId} {s middle t : Progress Notes}

/-! ## Passes -/

/-- One pass over operations in an order, and whether it changed anything. -/
def passIn (ctx : Context) (order : List NodeId) : Solving Bool := do
  modifySolution fun sol => { sol with iterations := sol.iterations + 1 }
  sweep ctx order

/-- Passes until one reports no change, each over the operations in its own order. -/
inductive Passes (ctx : Context) :
    (Nat → List NodeId) → Progress Notes → Progress Notes → Prop
  | last {orders : Nat → List NodeId} {s t : Progress Notes}
      (hpass : (passIn ctx (orders 0)).outcome s = (.ok false, t)) :
      Passes ctx orders s t
  | more {orders : Nat → List NodeId} {s middle t : Progress Notes}
      (hpass : (passIn ctx (orders 0)).outcome s = (.ok true, middle))
      (hrest : Passes ctx (fun count => orders (count + 1)) middle t) :
      Passes ctx orders s t

section Passes

variable {orders : Nat → List NodeId}

/-- A pass in any order tells truly whether it changes anything. -/
theorem runs_passIn (order : List NodeId) (hs : Tidy ctx s) :
    Runs (passIn ctx order) s
      (Reported ctx traced (fun st => ∀ op ∈ order, SettledAt ctx op st) s) :=
  .modifyNotes_bind ((runs_sweep order ((change_counted s).tidy hs)).weaken fun _ _ ht =>
    ht.before (change_counted s) hs (still_counted s))

theorem Passes.moves (h : Passes ctx orders s t) (hs : Tidy ctx s) :
    Moves ctx ⟨s, false⟩ ⟨t, false⟩ := by
  induction h with
  | last hpass => exact ((runs_passIn _ hs).gives _ _ hpass).moves false
  | more hpass _ ih =>
    have hmoves := ((runs_passIn _ hs).gives _ _ hpass).moves false
    exact hmoves.trans (ih (hmoves.tidy hs))

/-- If all operations are visited in every pass, then none has anything left to do. -/
theorem Passes.settled (h : Passes ctx orders s t) (hs : Tidy ctx s)
    (horders : ∀ count op, s.graph.isOp op → op ∈ orders count) : Settled ctx t := by
  induction h with
  | last hpass =>
    have hreported := (runs_passIn _ hs).gives _ _ hpass
    obtain ⟨hstill, hsettled⟩ := hreported.still rfl
    intro op found hop
    rw [hstill.graph_eq] at hop
    exact hsettled op (horders 0 op (isOp_iff.mpr ⟨found, hop⟩)) found (hstill.graph_eq ▸ hop)
  | more hpass _ ih =>
    have hreported := (runs_passIn _ hs).gives _ _ hpass
    refine ih (hreported.tidy hs) fun count op hop => horders (count + 1) op ?_
    obtain ⟨found, hop⟩ := isOp_iff.mp hop
    rw [hreported.advances.1.op?_eq] at hop
    exact isOp_iff.mpr ⟨found, hop⟩

/-- Where violations are recorded, the passes come to an end in any orders. -/
theorem exists_passes (hs : Tidy ctx s) (hwarn : s.policy.severity = .warn)
    (orders : Nat → List NodeId) : ∃ t, Passes ctx orders s t := by
  -- every pass but the last gains a fact, and there are only so many facts about the first nodes
  suffices hall : ∀ bound st, Enriches s.graph st.graph → Tidy ctx st →
      st.policy.severity = .warn → passBound s.graph ≤ factCount st + bound →
        ∀ orders, ∃ t, Passes ctx orders st t from
    hall (passBound s.graph) s (refl_of Enriches _) hs hwarn (Nat.le_add_left _ _)
      orders
  intro bound
  induction bound with
  | zero =>
    intro st hg hstate _ hbound
    exact absurd (factCount_lt_passBound hg hstate.sound) (Nat.not_lt.mpr hbound)
  | succ bound ih =>
    intro st hg hstate hwarn hbound orders
    have hruns := runs_passIn (orders 0) hstate
    obtain ⟨changed, next, hpass, hwarn⟩ := hruns.fair.ends hwarn
    cases changed with
    | false => exact ⟨next, .last hpass⟩
    | true =>
      have hreported := hruns.gives _ _ hpass
      have htidy := hreported.tidy hstate
      have hlt := factCount_lt hreported.advances (hreported.gains rfl) htidy.sound
      obtain ⟨t, ht⟩ := ih next (trans_of Enriches hg hreported.advances.1)
        htidy hwarn (by omega) fun count => orders (count + 1)
      exact ⟨t, .more hpass ht⟩

end Passes

/-! ## The passes of the solver -/

/-- A graph that gets no operations lists the same ones. -/
theorem ops_eq_of_develops {old new : FlowGraph} (h : Develops old new) : new.ops = old.ops := by
  obtain ⟨more, hsize⟩ := Nat.exists_eq_add_of_le h.size_le
  have hisOp : new.isOp = old.isOp := by
    funext id
    rw [Bool.eq_iff_iff, isOp_iff, isOp_iff, h.op?_eq]
  have hnone : ∀ id ∈ (List.range more).map (old.nodes.size + ·), ¬ old.isOp id := by
    intro id hid hop
    obtain ⟨_, _, rfl⟩ := List.mem_map.mp hid
    exact absurd (lt_size_of_isOp hop) (Nat.not_lt.mpr (Nat.le_add_right _ _))
  rw [ops, ops, nodeIds, nodeIds, hisOp, hsize, List.range_add, List.filter_append,
    List.filter_eq_nil_iff.mpr hnone, List.append_nil]

/-- Passes in the order of creation are those of the solver, if it may make enough of them. -/
theorem Passes.outcome_settle {origin : FlowGraph} {passes : Nat}
    (h : Passes ctx (fun _ => origin.ops) s t) (hs : Tidy ctx s)
    (hg : Enriches origin s.graph) (hpasses : passBound origin ≤ factCount s + passes) :
    (settle ctx passes).outcome s = (.ok (), t) := by
  generalize horders : (fun _ => origin.ops) = orders at h
  induction h generalizing passes with
  | @last _ s t hpass =>
    have hlt := factCount_lt_passBound hg hs.sound
    obtain ⟨passes, rfl⟩ : ∃ fewer, passes = fewer + 1 := ⟨passes - 1, by omega⟩
    have hpass : (pass ctx).outcome s = (.ok false, t) := by
      rw [outcome_pass, ops_eq_of_develops hg.toDevelops, congrFun horders 0]
      exact hpass
    rw [settle, outcome_bind, hpass]
    rfl
  | @more _ s middle t hpass _ ih =>
    have hlt := factCount_lt_passBound hg hs.sound
    obtain ⟨passes, rfl⟩ : ∃ fewer, passes = fewer + 1 := ⟨passes - 1, by omega⟩
    have hreported := (runs_passIn _ hs).gives _ _ hpass
    have htidy := hreported.tidy hs
    have hgains := factCount_lt hreported.advances (hreported.gains rfl) htidy.sound
    have hpass : (pass ctx).outcome s = (.ok true, middle) := by
      rw [outcome_pass, ops_eq_of_develops hg.toDevelops, congrFun horders 0]
      exact hpass
    rw [settle, outcome_bind, hpass]
    exact ih htidy (trans_of Enriches hg hreported.advances.1) (by omega)
      (horders ▸ rfl)

/-- Where violations are recorded, the passes of the solver are those in the order of creation. -/
theorem outcome_settle_iff (hs : Tidy ctx s) (hwarn : s.policy.severity = .warn) :
    (settle ctx (passBound s.graph)).outcome s = (.ok (), t) ↔
      Passes ctx (fun _ => s.graph.ops) s t := by
  have hsettle : ∀ {t}, Passes ctx (fun _ => s.graph.ops) s t →
      (settle ctx (passBound s.graph)).outcome s = (.ok (), t) := fun h =>
    h.outcome_settle hs (refl_of Enriches _) (Nat.le_add_left _ _)
  refine ⟨fun h => ?_, hsettle⟩
  obtain ⟨t', hpasses⟩ := exists_passes hs hwarn fun _ => s.graph.ops
  cases h.symm.trans (hsettle hpasses)
  exact hpasses

end WidgetFlow.Solving
