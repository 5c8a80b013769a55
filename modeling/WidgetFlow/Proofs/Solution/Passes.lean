import WidgetFlow.Proofs.Solution.Resolution

/-!
# Passes over the operations

A pass tells truly whether it changes anything, and if it does not, then no operation has anything
left to do (`runs_pass`). From such a state a pass rests (`rests_pass`). All passes together are
made of moves (`runs_settle`).
-/

namespace WidgetFlow.Solving

open Analysis FlowGraph

variable {ctx : Context} {s : Progress Notes}

/-- No operation has anything left to do. -/
def Settled (ctx : Context) (st : Progress Notes) : Prop := ∀ op, SettledAt ctx op st

theorem runs_sweep (ops : List NodeId) (hs : Tidy ctx s) :
    Runs (sweep ctx ops) s
      (Reported ctx traced (fun st => ∀ op ∈ ops, SettledAt ctx op st) s) :=
  runs_loop ops (visit ctx) (fun _ _ _ => SettledAt.still) hs fun op _ _ _ hstate =>
    runs_visit hstate op

theorem rests_sweep (ops : List NodeId) (h : Settled ctx s) : Rests (sweep ctx ops) s :=
  Rests.foldlM ops (visit ctx) fun _ hstate op _ => rests_visit ((h op).still hstate)

def counted (st : Progress Notes) : Progress Notes :=
  { st with
    notes := { st.notes with
      solution := { st.notes.solution with
        iterations := st.notes.solution.iterations + 1 } } }

theorem still_counted (st : Progress Notes) : Still st (counted st) :=
  ⟨rfl, rfl, { refl_of Notes.Grows st.notes with },
    { Solution.Same.refl st.notes.solution with }⟩

theorem change_counted (st : Progress Notes) : Change ctx st (counted st) :=
  .note rfl rfl

theorem outcome_pass (ctx : Context) (s : Progress Notes) :
    (pass ctx).outcome s = (sweep ctx s.graph.ops).outcome (counted s) :=
  rfl

/-- A pass tells truly whether it changes anything. -/
theorem runs_pass (hs : Tidy ctx s) :
    Runs (pass ctx) s (Reported ctx traced (Settled ctx) s) := by
  have hcounted : Tidy ctx (counted s) := (change_counted s).tidy hs
  refine .modifyNotes_bind (.getGraph ((runs_sweep s.graph.ops hcounted).weaken ?_))
  intro changed t ht
  refine (ht.before (change_counted s) hs (still_counted s)).weaken ?_
  -- the pass was over the operations of the first graph, and there are no others in the last one
  intro hstill hsettled op found hop
  rw [hstill.graph_eq] at hop
  have hmem : op ∈ s.graph.ops := mem_ops.mpr (isOp_iff.mpr ⟨found, hop⟩)
  exact hsettled op hmem found (hstill.graph_eq ▸ hop)

/-- If no operation has anything left to do, a pass does nothing. -/
theorem rests_pass (h : Settled ctx s) : Rests (pass ctx) s := by
  have hcounted : Settled ctx (counted s) := fun op => (h op).still (still_counted s)
  obtain ⟨t, houtcome, ht⟩ := rests_sweep s.graph.ops hcounted
  exact ⟨t, houtcome, trans_of Still (still_counted s) ht⟩

theorem runs_settle (passes : Nat) (hs : Tidy ctx s) :
    Runs (settle ctx passes) s fun _ t => Moves ctx ⟨s, false⟩ ⟨t, false⟩ := by
  induction passes generalizing s with
  | zero => exact .pure .refl
  | succ passes ih =>
    refine (runs_pass hs).bind fun changed middle hmiddle => ?_
    have hmoves := hmiddle.moves false
    split
    · exact (ih (hmiddle.tidy hs)).weaken fun _ _ hmoves' => hmoves.trans hmoves'
    · exact .pure hmoves

end WidgetFlow.Solving
