import Mathlib.Data.Finset.Prod
import Mathlib.Data.Set.Card
import WidgetFlow.Proofs.Solution.Passes

/-!
# The passes come to an end

Every pass that reports a change gains a fact, facts stay, and all facts are about nodes that were
there before the first pass. So there are fewer such passes than facts about these nodes
(`Rounds.lt_passBound`), and the bound that `solve` gives to `settle` never cuts it off
(`settle_cases`, `settle_ends`).
-/

namespace WidgetFlow.Solving

open Analysis FlowGraph

variable {ctx : Context} {origin : FlowGraph} {old new st : Progress Notes}

/-! ## Counting facts -/

namespace Fact

/-- All facts about the nodes below a number. -/
def upTo (size : Nat) : Finset Fact :=
  let nodes : Finset NodeId := Finset.range size
  let pairs := nodes ×ˢ nodes
  let arrivals (i : Inlet) := pairs.image fun (op, o) => arrived i op o
  arrivals .parameter ∪ arrivals .receiver ∪ arrivals .listener ∪
    pairs.image (fun (op, o) => given op o) ∪
    pairs.image (fun (c, p) => inside c p) ∪
    nodes.image named ∪
    (nodes ×ˢ pairs).image fun (op, view, lis) => bound op view lis

theorem card_upTo_le (size : Nat) :
    (upTo size).card ≤ size * size * size + 5 * (size * size) + size := by
  unfold upTo
  extract_lets nodes pairs arrivals
  have hnodes : nodes.card = size := Finset.card_range size
  have hpairs : pairs.card = size * size := by rw [Finset.card_product, hnodes]
  have htriples : (nodes ×ˢ pairs).card = size * size * size := by
    rw [Finset.card_product, hnodes, hpairs, Nat.mul_assoc]
  have himage : ∀ (fact : NodeId × NodeId → Fact), (pairs.image fact).card ≤ size * size :=
    fun fact => hpairs ▸ Finset.card_image_le
  have harrivals : ∀ i, (arrivals i).card ≤ size * size := fun i => himage _
  have hunion : ∀ {first second : Finset Fact} {one other : Nat}, first.card ≤ one →
      second.card ≤ other → (first ∪ second).card ≤ one + other := fun hfirst hsecond =>
    (Finset.card_union_le _ _).trans (Nat.add_le_add hfirst hsecond)
  calc
    _ ≤ size * size + size * size + size * size + size * size + size * size + size +
          size * size * size :=
        hunion (hunion (hunion (hunion (hunion (hunion (harrivals .parameter)
          (harrivals .receiver)) (harrivals .listener)) (himage _)) (himage _))
          (hnodes ▸ Finset.card_image_le)) (htriples ▸ Finset.card_image_le)
    _ = size * size * size + 5 * (size * size) + size := by omega

def nodes : Fact → List NodeId
  | arrived _ op o => [op, o]
  | given op o => [op, o]
  | inside c p => [c, p]
  | named o => [o]
  | bound op view lis => [op, view, lis]

theorem mem_upTo {size : Nat} {fact : Fact} (h : ∀ n ∈ fact.nodes, n < size) :
    fact ∈ upTo size := by
  simp only [upTo, Finset.mem_union, Finset.mem_image, Finset.mem_product, Finset.mem_range,
    Prod.exists]
  cases fact with
  | arrived i op o => cases i <;> simp_all [nodes]
  | _ => simp_all [nodes]

/-- The operations and objects are those that were there when the passes began. -/
theorem Holds.lt_size {fact : Fact} (h : fact.Holds st) (hg : Enriches origin st.graph)
    (hstate : st.Sound) : ∀ n ∈ fact.nodes, n < origin.nodes.size := by
  have hop : ∀ op, st.graph.isOp op → op < origin.nodes.size := by
    intro op hop
    obtain ⟨found, hfound⟩ := isOp_iff.mp hop
    rw [hg.op?_eq] at hfound
    exact lt_size_of_isOp (isOp_iff.mpr ⟨found, hfound⟩)
  have hobject : ∀ o, st.graph.HasObject o → o < origin.nodes.size :=
    fun o h => lt_size_of_isObject (hg.hasObject_iff.mp h)
  cases fact with
  | arrived i op o =>
    have hfits := hstate.fits.values i op o h
    simp [nodes, hop op hfits.1, hobject o hfits.2]
  | given op o =>
    have hfits := hstate.fits.results op o h
    simp [nodes, hop op hfits.1, hobject o hfits.2]
  | inside c p =>
    have hends := hstate.wellFormed.link_ends _ h
    simp [nodes, hobject c hends.1, hobject p hends.2]
  | named o => simp [nodes, hobject o h.1]
  | bound op view lis =>
    obtain ⟨hisOp, hview, hlistener⟩ := hstate.fits.bound op view lis h
    simp [nodes, hop op hisOp, hobject view hview, hobject lis hlistener]

end Fact

noncomputable def factCount (st : Progress Notes) : Nat := {fact : Fact | fact.Holds st}.ncard

theorem facts_subset (hg : Enriches origin st.graph) (hstate : st.Sound) :
    {fact : Fact | fact.Holds st} ⊆ Fact.upTo origin.nodes.size :=
  fun _ h => Fact.mem_upTo (Fact.Holds.lt_size h hg hstate)

theorem factCount_lt_passBound (hg : Enriches origin st.graph) (hstate : st.Sound) :
    factCount st < passBound origin := by
  have hle := Set.ncard_le_ncard (facts_subset hg hstate) (Finset.finite_toSet _)
  rw [Set.ncard_coe_finset] at hle
  exact Nat.lt_succ_of_le (hle.trans (Fact.card_upTo_le _))

theorem factCount_lt (hg : Advances old new) (hgains : Gains old new) (hnew : new.Sound) :
    factCount old < factCount new := by
  obtain ⟨fact, hold, hfact⟩ := hgains
  have hfinite : {fact : Fact | fact.Holds new}.Finite :=
    (Finset.finite_toSet _).subset (facts_subset (refl_of Enriches _) hnew)
  refine Set.ncard_lt_ncard ⟨fun _ h => Fact.Holds.mono hg h, fun hsubset => ?_⟩ hfinite
  exact hold (hsubset hfact)

/-! ## Rounds -/

/-- A number of passes in a row, each of which ends well and reports a change. -/
inductive Rounds (ctx : Context) (s : Progress Notes) : Nat → Progress Notes → Prop
  | none : Rounds ctx s 0 s
  | more {count : Nat} {last next : Progress Notes} : Rounds ctx s count last →
      (pass ctx).outcome last = (.ok true, next) → Rounds ctx s (count + 1) next

section Rounds

variable {s last next t : Progress Notes} {count : Nat}

theorem Rounds.first (hfirst : (pass ctx).outcome s = (.ok true, next))
    (h : Rounds ctx next count last) : Rounds ctx s (count + 1) last := by
  induction h with
  | none => exact .more .none hfirst
  | more _ hpass ih => exact .more ih hpass

theorem Rounds.reached (hs : Proper ctx s) (h : Rounds ctx s count last) :
    Proper ctx last ∧ Advances s last ∧ factCount s + count ≤ factCount last := by
  induction h with
  | none => exact ⟨hs, refl_of Advances s, Nat.le_refl _⟩
  | more _ hpass ih =>
    -- the round has gained a fact and lost none
    obtain ⟨hproper, hadvances, hcount⟩ := ih
    have hpassed := (runs_pass hproper.tidy).gives _ _ hpass
    have hnext := (hpassed.moves false).proper hproper
    have hlt := factCount_lt hpassed.advances (hpassed.gains rfl) hnext.sound
    exact ⟨hnext, trans_of Advances hadvances hpassed.advances,
      Nat.le_trans (Nat.succ_le_succ hcount) hlt⟩

theorem Rounds.lt_passBound (hs : Proper ctx s) (h : Rounds ctx s count last) :
    count < passBound s.graph := by
  obtain ⟨hlast, hadvances, hcount⟩ := h.reached hs
  exact Nat.lt_of_le_of_lt (Nat.le_trans (Nat.le_add_left _ _) hcount)
    (factCount_lt_passBound hadvances.1 hlast.sound)

variable {passes : Nat} {res : Except AnalysisError Unit}

/-- The passes end with one that reports no change or fails, unless they are cut off. -/
theorem settle_cases (h : (settle ctx passes).outcome s = (res, t)) :
    (∃ count last, Rounds ctx s count last ∧
      (pass ctx).outcome last = (res.map fun _ => false, t)) ∨
    Rounds ctx s passes t := by
  -- `settle` goes from the first pass on, so the rounds grow at their beginning
  induction passes generalizing s with
  | zero =>
    cases h
    exact .inr .none
  | succ passes ih =>
    unfold settle at h
    rw [outcome_bind] at h
    rcases hpass : (pass ctx).outcome s with ⟨_ | changed, middle⟩
    · rw [hpass] at h
      cases h
      exact .inl ⟨0, s, .none, hpass⟩
    · rw [hpass] at h
      cases changed with
      | false =>
        cases h
        exact .inl ⟨0, s, .none, hpass⟩
      | true =>
        rcases ih h with ⟨count, last, hrounds, hlast⟩ | hrounds
        · exact .inl ⟨count + 1, last, hrounds.first hpass, hlast⟩
        · exact .inr (hrounds.first hpass)

/-- The passes are never cut off. -/
theorem settle_ends (hs : Proper ctx s)
    (h : (settle ctx (passBound s.graph)).outcome s = (res, t)) :
    ∃ count last, Rounds ctx s count last ∧
      (pass ctx).outcome last = (res.map fun _ => false, t) :=
  (settle_cases h).resolve_right fun hrounds => Nat.lt_irrefl _ (hrounds.lt_passBound hs)

/-- If the passes end well, no operation has anything left to do. -/
theorem settled_of_settle (hs : Proper ctx s)
    (h : (settle ctx (passBound s.graph)).outcome s = (.ok (), t)) :
    Proper ctx t ∧ Advances s t ∧ Settled ctx t := by
  obtain ⟨count, last, hrounds, hpass⟩ := settle_ends hs h
  obtain ⟨hlast, hadvances, _⟩ := hrounds.reached hs
  have hpassed := (runs_pass hlast.tidy).gives _ _ hpass
  exact ⟨(hpassed.moves false).proper hlast, trans_of Advances hadvances hpassed.advances,
    (hpassed.still rfl).2⟩

end Rounds

end WidgetFlow.Solving
