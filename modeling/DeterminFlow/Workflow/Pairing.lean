/-
  Workflow.Pairing
  **PAIRING PARALLEL GATEWAYS.**

  `auto_pair_gateways` promises a parallel gateway the first converge gateway
  that all its branches reach.  It takes the first one in the listing of the
  gateways.
-/
import DeterminFlow.Workflow.Validation

namespace DeterminFlow.Workflow

open Library List

namespace WorkflowDef

variable (d : WorkflowDef)

/-! ## Common joins -/

/-- A converge gateway that every out-edge of a gateway reaches. -/
structure CommonJoin (gatewayId cid : String) : Prop where
  converge : cid ∈ d.convergeIds
  other : cid ≠ gatewayId
  reached : ∀ t ∈ d.targetsOf gatewayId, Reaches d.arcs (fun _ => false) t cid

/-- `c` stands on every path from a gateway to `cid`: none avoids it. -/
def OnEveryPath (gatewayId cid c : String) : Prop := ¬ Reaches d.arcs (· == c) gatewayId cid

/-- What should be assigned to a gateway: a common join with no other common join
before it on every path, and nothing only where there is none. -/
structure FirstJoin (gatewayId : String) (choice : Option String) : Prop where
  join : ∀ cid, choice = some cid → d.CommonJoin gatewayId cid
  first : ∀ cid, choice = some cid → ∀ c, d.CommonJoin gatewayId c → c ≠ cid →
    ¬ d.OnEveryPath gatewayId cid c
  exhaustive : choice = none → ∀ cid, ¬ d.CommonJoin gatewayId cid

def relisted (order : List WorkflowGateway) : WorkflowDef := { d with gateways := order }

/-- **The law of pairing** for a gateway: the first common join, the same one for
every listing of the gateways. -/
structure PairingLawful (g : WorkflowGateway) : Prop where
  firstJoin : d.FirstJoin g.id (d.pairGateway g).convergeGatewayId
  orderFree : ∀ order, order.Perm d.gateways →
    ((d.relisted order).pairGateway g).convergeGatewayId = (d.pairGateway g).convergeGatewayId

/-! ## What is assigned -/

variable {d}

def joinTest (d : WorkflowDef) (gatewayId cid : String) : Bool :=
  cid != gatewayId && (d.targetsOf gatewayId).all (fun t => decide (cid ∈ d.branchReachable gatewayId t))

variable {gatewayId cid : String}

lemma joinTest_iff : d.joinTest gatewayId cid = true
      ↔ cid ≠ gatewayId ∧ ∀ t ∈ d.targetsOf gatewayId, Reaches d.arcs (fun _ => false) t cid := by
  have hkeep : ∀ (s : List String) (y : String), (fun _ _ => true : List String → String → Bool) s y = false →
      y ∈ s ∨ (fun _ => false : String → Bool) y = true := by
    intro s y h
    cases h
  have hreach : ∀ t, cid ≠ gatewayId →
      (cid ∈ d.branchReachable gatewayId t ↔ Reaches d.arcs (fun _ => false) t cid) := by
    intro t hne
    rw [branchReachable, mem_cons, mem_search hkeep]
    simp [hne]
  rw [joinTest, Bool.and_eq_true, bne_iff_ne, all_eq_true]
  constructor
  · rintro ⟨hne, hall⟩
    exact ⟨hne, fun t ht => (hreach t hne).1 (of_decide_eq_true (hall t ht))⟩
  rintro ⟨hne, hall⟩
  exact ⟨hne, fun t ht => decide_eq_true ((hreach t hne).2 (hall t ht))⟩

lemma commonJoin_iff :
    d.CommonJoin gatewayId cid ↔ cid ∈ d.convergeIds ∧ d.joinTest gatewayId cid = true := by
  constructor
  · exact fun h => ⟨h.converge, joinTest_iff.2 ⟨h.other, h.reached⟩⟩
  rintro ⟨hconverge, htest⟩
  obtain ⟨hne, hall⟩ := joinTest_iff.1 htest
  exact ⟨hconverge, hne, hall⟩

lemma pairedConverge_eq (gatewayId : String) :
    d.pairedConverge gatewayId = d.convergeIds.find? (d.joinTest gatewayId) := rfl

lemma commonJoin_of_paired (h : d.pairedConverge gatewayId = some cid) :
    d.CommonJoin gatewayId cid := by
  rw [pairedConverge_eq] at h
  exact commonJoin_iff.2 ⟨mem_of_find?_eq_some h, find?_some h⟩

lemma no_commonJoin_of_unpaired (h : d.pairedConverge gatewayId = none) (cid : String) :
    ¬ d.CommonJoin gatewayId cid := by
  intro hjoin
  obtain ⟨hconverge, htest⟩ := commonJoin_iff.1 hjoin
  rw [pairedConverge_eq, find?_eq_none] at h
  exact h cid hconverge htest

lemma commonJoin_relisted {order : List WorkflowGateway} (horder : order.Perm d.gateways) :
    (d.relisted order).CommonJoin gatewayId cid ↔ d.CommonJoin gatewayId cid := by
  have hconverge : cid ∈ (d.relisted order).convergeIds ↔ cid ∈ d.convergeIds := by
    rw [mem_convergeIds, mem_convergeIds]
    constructor
    · rintro ⟨g, hg, h⟩
      exact ⟨g, horder.mem_iff.1 hg, h⟩
    rintro ⟨g, hg, h⟩
    exact ⟨g, horder.mem_iff.2 hg, h⟩
  constructor
  · exact fun h => ⟨hconverge.1 h.converge, h.other, h.reached⟩
  exact fun h => ⟨hconverge.2 h.converge, h.other, h.reached⟩

lemma paired_listed_first (h : d.CommonJoin gatewayId cid) :
    ∃ order, order.Perm d.gateways ∧ (d.relisted order).pairedConverge gatewayId = some cid := by
  obtain ⟨g, hg, htype, rfl⟩ := mem_convergeIds.1 h.converge
  have hperm : (g :: d.gateways.erase g).Perm d.gateways := (perm_cons_erase hg).symm
  refine ⟨g :: d.gateways.erase g, hperm, ?_⟩
  have htest := (commonJoin_iff.1 ((commonJoin_relisted hperm).2 h)).2
  have hfirst : (d.relisted (g :: d.gateways.erase g)).convergeIds
      = g.id :: (((d.gateways.erase g).filter (·.gatewayType = .converge)).map (·.id)) := by
    show ((g :: d.gateways.erase g).filter _).map _ = _
    rw [filter_cons_of_pos (by rw [htype]; rfl)]
    rfl
  rw [pairedConverge_eq, hfirst, find?_cons_of_pos htest]

lemma pairGateway_paired {g : WorkflowGateway} (hparallel : g.gatewayType = .parallel)
    (htwo : 2 ≤ (d.targetsOf g.id).length) :
    (d.pairGateway g).convergeGatewayId = d.pairedConverge g.id := by
  rw [pairGateway, if_pos ⟨hparallel, htwo⟩]

/-- **The first common join is assigned, whatever the listing, exactly if** there
is at most one. -/
theorem pairing_lawful_iff {g : WorkflowGateway} (hparallel : g.gatewayType = .parallel)
    (htwo : 2 ≤ (d.targetsOf g.id).length) :
    d.PairingLawful g ↔ ∀ c c', d.CommonJoin g.id c → d.CommonJoin g.id c' → c = c' := by
  have hpaired : ∀ order, ((d.relisted order).pairGateway g).convergeGatewayId
      = (d.relisted order).pairedConverge g.id := fun order => pairGateway_paired hparallel htwo
  constructor
  · intro h c c' hc hc'
    obtain ⟨order, horder, hfirst⟩ := paired_listed_first hc
    obtain ⟨other, hother, hsecond⟩ := paired_listed_first hc'
    have hsame := (h.orderFree order horder).trans (h.orderFree other hother).symm
    rw [hpaired, hpaired, hfirst, hsecond] at hsame
    exact Option.some.inj hsame
  intro hunique
  constructor
  · rw [pairGateway_paired hparallel htwo]
    constructor
    · exact fun cid hcid => commonJoin_of_paired hcid
    · intro cid hcid c hc hne
      exact absurd (hunique c cid hc (commonJoin_of_paired hcid)) hne
    exact no_commonJoin_of_unpaired
  intro order horder
  rw [hpaired, pairGateway_paired hparallel htwo]
  -- both listings give the only common join, or there is none
  cases hrelisted : (d.relisted order).pairedConverge g.id with
  | none =>
    cases hhere : d.pairedConverge g.id with
    | none => rfl
    | some c =>
      have hjoin := (commonJoin_relisted horder).2 (commonJoin_of_paired hhere)
      exact absurd hjoin (no_commonJoin_of_unpaired hrelisted c)
  | some c =>
    have hjoin := (commonJoin_relisted horder).1 (commonJoin_of_paired hrelisted)
    cases hhere : d.pairedConverge g.id with
    | none => exact absurd hjoin (no_commonJoin_of_unpaired hhere c)
    | some c' => rw [hunique c c' hjoin (commonJoin_of_paired hhere)]

/-! ## Two blocks in a row -/

/-- `P1 .. C1 .. P2 .. C2`, the second join listed before the first. -/
def consecutiveBlocks : WorkflowDef where
  nodes := [{ id := "a" }, { id := "b" }, { id := "c" }, { id := "e" }]
  edges := [{ source := "P1", target := "a" }, { source := "P1", target := "b" },
    { source := "a", target := "C1" }, { source := "b", target := "C1" },
    { source := "C1", target := "P2" }, { source := "P2", target := "c" },
    { source := "P2", target := "e" }, { source := "c", target := "C2" },
    { source := "e", target := "C2" }]
  gateways := [{ id := "P1" }, { id := "C2", gatewayType := .converge },
    { id := "C1", gatewayType := .converge }, { id := "P2" }]

def oneBlock : WorkflowDef where
  nodes := [{ id := "a" }, { id := "b" }]
  edges := [{ source := "P1", target := "a" }, { source := "P1", target := "b" },
    { source := "a", target := "C1" }, { source := "b", target := "C1" }]
  gateways := [{ id := "P1" }, { id := "C1", gatewayType := .converge }]

theorem pairing_lawful_iff_oneBlock : oneBlock.PairingLawful { id :="P1" }
      ↔ ∀ c c', oneBlock.CommonJoin "P1" c → oneBlock.CommonJoin "P1" c' → c = c' :=
  pairing_lawful_iff rfl (by decide)

/-- **The second join is assigned** to the first gateway, though every path to it
passes the first join. -/
theorem consecutive_mispaired : (consecutiveBlocks.pairGateway { id :="P1" }).convergeGatewayId = some "C2"
      ∧ consecutiveBlocks.CommonJoin "P1" "C1" ∧ consecutiveBlocks.OnEveryPath "P1" "C2" "C1"
      ∧ ¬ consecutiveBlocks.PairingLawful { id := "P1" } := by
  have hpaired : (consecutiveBlocks.pairGateway { id := "P1" }).convergeGatewayId = some "C2" := by
    decide
  have hjoin : consecutiveBlocks.CommonJoin "P1" "C1" :=
    commonJoin_iff.2 ⟨by decide, by decide⟩
  have hpath : consecutiveBlocks.OnEveryPath "P1" "C2" "C1" := by
    have hkeep : ∀ (s : List String) (y : String),
        (fun _ _ => true : List String → String → Bool) s y = false → y ∈ s ∨ (y == "C1") = true := by
      intro s y h
      cases h
    intro hreaches
    have hmem : "C2" ∈ search consecutiveBlocks.arcs .stack (· == "C1") (fun _ _ => true) ["P1"] :=
      (mem_search hkeep).2 ⟨"P1", mem_singleton_self _, hreaches⟩
    revert hmem
    decide
  refine ⟨hpaired, hjoin, hpath, fun h => ?_⟩
  exact h.firstJoin.first "C2" hpaired "C1" hjoin (by decide) hpath

end WorkflowDef
end DeterminFlow.Workflow
