/-
  Engine.Enrichment
  **THE VARIABLES OF A NODE.**

  `_enrich_parameter_values` collects the upstream nodes of a node in a
  Python set and lets their outputs overwrite the parameters one after the
  other, in whatever order the set is enumerated.  Its comment promises the
  topological order.
-/
import DeterminFlow.Engine.TaskRun
import DeterminFlow.Workflow.Validation

namespace DeterminFlow.Engine

open Library Coop Workflow DeterminFlow.Runtime

/-! ## Upstream nodes and what they write -/

variable (E : Env) (w : World)

def Env.enumerating (σ : List String → List String) : Env := { E with setOrder := σ }

/-- The set `upstream_ids`, as it is collected. -/
def upstreamSet (nodeId : String) : List String :=
  (search (E.definition.edges.map (fun e => (e.target, e.source))) .queue
    (fun _ => false) (fun seen s => !decide (s ∈ seen)) [nodeId]).filter (· ≠ nodeId)

def outputsOf (nodeId : String) : Pool := ((w.stateOf nodeId).map usableOutputs).getD []

lemma enrichParameterValues_eq (nodeId : String) : enrichParameterValues E w nodeId
      = Dict.mergeAll (outputsOf w) w.task.parameterValues (upstreamIds E nodeId) := rfl

/-! ## What the values should be -/

/-- `u` is the last writer of a key before `nodeId`: every upstream node that
writes the key lies on a path to `u`. -/
def LastWriter (nodeId key u : String) : Prop :=
  u ∈ upstreamSet E nodeId ∧
    ∀ v ∈ upstreamSet E nodeId, ((outputsOf w v).written key).isSome →
      Reaches (E.definition.edges.map (fun e => (e.source, e.target))) (fun _ => false) v u

/-- **The law of enrichment** for a node: no value depends on the enumeration
of the upstream set, and the last writer of a key decides its value. -/
structure EnrichmentLawful (nodeId : String) : Prop where
  orderFree : ∀ σ τ, (E.enumerating σ).EnumeratesSets → (E.enumerating τ).EnumeratesSets →
    ∀ key, (enrichParameterValues (E.enumerating σ) w nodeId).get? key
      = (enrichParameterValues (E.enumerating τ) w nodeId).get? key
  lastWins : ∀ σ, (E.enumerating σ).EnumeratesSets → ∀ key u v, LastWriter E w nodeId key u →
    (outputsOf w u).written key = some v →
    (enrichParameterValues (E.enumerating σ) w nodeId).get? key = some v

def NoSharedKey (nodeId : String) : Prop := Dict.Agree (outputsOf w) (upstreamSet E nodeId)

/-! ## When they are -/

def enumerationOf (set wanted : List String) (l : List String) : List String :=
  if l = set then wanted else l

lemma enumerationOf_enumerates {set wanted : List String} (h : wanted.Perm set) :
    (E.enumerating (enumerationOf set wanted)).EnumeratesSets := by
  intro l
  show (enumerationOf set wanted l).Perm l
  unfold enumerationOf
  by_cases hl : l = set
  · rw [if_pos hl, hl]
    exact h
  rw [if_neg hl]

/-- **Enrichment is lawful exactly when no key is shared.** -/
theorem enrichment_lawful_iff (nodeId : String) :
    EnrichmentLawful E w nodeId ↔ NoSharedKey E w nodeId := by
  have hvalues : ∀ σ, enrichParameterValues (E.enumerating σ) w nodeId
      = Dict.mergeAll (outputsOf w) w.task.parameterValues (σ (upstreamSet E nodeId)) :=
    fun σ => enrichParameterValues_eq (E.enumerating σ) w nodeId
  constructor
  · intro hlaw
    refine (Dict.mergeAll_order_free_iff w.task.parameterValues _).1 ?_
    intro _ _ hs ht key
    have hsame := hlaw.orderFree _ _ (enumerationOf_enumerates E hs)
      (enumerationOf_enumerates E ht) key
    rw [hvalues, hvalues] at hsame
    unfold enumerationOf at hsame
    rwa [if_pos rfl, if_pos rfl] at hsame
  intro hagree
  refine ⟨?_, ?_⟩
  · intro σ _ hσ hτ key
    rw [hvalues, hvalues]
    exact (Dict.mergeAll_order_free_iff w.task.parameterValues _).2 hagree _ _ (hσ _) (hτ _) key
  intro σ hσ key _ _ hlast hwritten
  rw [hvalues]
  have hperm : (σ (upstreamSet E nodeId)).Perm (upstreamSet E nodeId) := hσ _
  have hagree' : Dict.Agree (outputsOf w) (σ (upstreamSet E nodeId)) := by
    intro x hx y hy
    exact hagree x (hperm.mem_iff.1 hx) y (hperm.mem_iff.1 hy)
  exact hagree'.get?_mergeAll (hperm.mem_iff.2 hlast.1) hwritten

/-! ## A key with two writers -/

def chained : WorkflowDef where
  nodes := [{ id := "a" }, { id := "b" }, { id := "d" }]
  edges := [{ source := "__start__", target := "a" }, { source := "a", target := "b" },
    { source := "b", target := "d" }, { source := "d", target := "__end__" }]

/-- The first two nodes have completed, and both have written `x`. -/
def bothWrote : World :=
  World.load { nodeStates :=
    [("a", { nodeId := "a", status := .completed, outputs := [("x", .str "older")] }),
     ("b", { nodeId := "b", status := .completed, outputs := [("x", .str "newer")] })] }

/-- **The value of a shared key depends on the enumeration**, and it may be
the one of the older writer. -/
theorem sharedKey_depends_on_order : chained.Accepted
      ∧ (enrichParameterValues (plainEnv chained) bothWrote "d").get? "x" = some (.str "older")
      ∧ (enrichParameterValues ((plainEnv chained).enumerating List.reverse) bothWrote "d").get? "x"
          = some (.str "newer")
      ∧ ¬ EnrichmentLawful (plainEnv chained) bothWrote "d" := by
  have holder : (enrichParameterValues (plainEnv chained) bothWrote "d").get? "x"
      = some (.str "older") := by rfl
  have hnewer : (enrichParameterValues ((plainEnv chained).enumerating List.reverse) bothWrote
      "d").get? "x" = some (.str "newer") := by rfl
  refine ⟨by decide, holder, hnewer, ?_⟩
  intro hlaw
  have hsame := hlaw.orderFree id List.reverse (fun l => List.Perm.refl l)
    (fun l => List.reverse_perm l) "x"
  have hid : (plainEnv chained).enumerating id = plainEnv chained := rfl
  rw [hid, holder, hnewer] at hsame
  simp at hsame

end DeterminFlow.Engine
