/-
  Runtime.WorldFacts
  **READING A WORLD AFTER AN UPDATE.**

  One lemma for each reader and each update of `Runtime.World`: which object
  is current, what an object holds, how many objects there are, and the
  state of a node.  The proofs about the engine use these and never unfold
  an update.
-/
import DeterminFlow.Runtime.World

namespace DeterminFlow.Runtime.World

open Library Workflow

variable (w : World) (n m : String) (r k : Nat) (s : NodeExecutionState)
  (f : NodeExecutionState → NodeExecutionState) (g : Attempt → Attempt) (a : Nat)
  (entry : LogEntry)

/-! ## Current objects -/

@[simp] lemma current?_modifyObject : (w.modifyObject n r f).current? m = w.current? m := rfl

@[simp] lemma current?_allocate : (w.allocate n s).current? m = w.current? m := rfl

@[simp] lemma current?_record : (w.record entry).current? m = w.current? m := rfl

@[simp] lemma current?_modifyAttempt : (w.modifyAttempt a g).current? m = w.current? m := rfl

lemma current?_install : (w.install n r).current? m = if n = m then some r else w.current? m :=
  Dict.get?_set _ _ _ _

@[simp] lemma current?_install_self : (w.install n r).current? n = some r := by
  rw [current?_install, if_pos rfl]

lemma current?_installNew :
    (w.installNew n s).current? m = if n = m then some (w.allocated n) else w.current? m := by
  rw [installNew, current?_install, current?_allocate]

lemma current?_materialize : (w.materialize n).current? m = w.current? m := by
  unfold materialize
  split <;> simp

lemma current?_upsert :
    (w.upsert n f).current? m = if n = m then some (w.currentOrNext n) else w.current? m := by
  rw [upsert, current?_install, current?_modifyObject, current?_materialize]

/-! ## Objects -/

lemma objects_modifyObject : (w.modifyObject n r f).objects m k
      = if m = n ∧ k = r then f (w.objects n r) else w.objects m k := by
  unfold modifyObject
  by_cases hm : m = n
  · subst hm
    by_cases hk : k = r
    · subst hk; simp
    simp [hk]
  simp [hm]

@[simp] lemma objects_modifyObject_self :
    (w.modifyObject n r f).objects n r = f (w.objects n r) := by
  rw [objects_modifyObject, if_pos ⟨rfl, rfl⟩]

lemma objects_modifyObject_ne (h : m ≠ n ∨ k ≠ r) :
    (w.modifyObject n r f).objects m k = w.objects m k := by
  rw [objects_modifyObject, if_neg (by rintro ⟨rfl, rfl⟩; simp at h)]

lemma objects_allocate : (w.allocate n s).objects m k
      = if m = n ∧ k = w.allocated n then s else w.objects m k := by
  unfold allocate
  by_cases hm : m = n
  · subst hm
    by_cases hk : k = w.allocated m
    · subst hk; simp
    simp [hk]
  simp [hm]

@[simp] lemma objects_allocate_self : (w.allocate n s).objects n (w.allocated n) = s := by
  rw [objects_allocate, if_pos ⟨rfl, rfl⟩]

@[simp] lemma objects_install : (w.install n r).objects m k = w.objects m k := rfl

@[simp] lemma objects_record : (w.record entry).objects m k = w.objects m k := rfl

lemma objects_installNew : (w.installNew n s).objects m k
      = if m = n ∧ k = w.allocated n then s else w.objects m k := by
  rw [installNew, objects_install, objects_allocate]

lemma objects_materialize : (w.materialize n).objects m k
      = if m = n ∧ k = w.currentOrNext n ∧ w.current? n = none then { nodeId := n }
        else w.objects m k := by
  unfold materialize
  split
  · rename_i r hr
    simp [hr]
  rename_i hr
  rw [objects_allocate]
  simp [currentOrNext, hr]

/-! ## Allocation -/

@[simp] lemma allocated_modifyObject : (w.modifyObject n r f).allocated m = w.allocated m := rfl

@[simp] lemma allocated_record : (w.record entry).allocated m = w.allocated m := rfl

/-! ## States -/

lemma statusOf_eq_some {w : World} {n : String} {status : NodeStatus} :
    w.statusOf n = some status ↔ ∃ r, w.current? n = some r ∧ (w.objects n r).status = status := by
  simp [statusOf, stateOf]

@[simp] lemma stateOf_record : (w.record entry).stateOf m = w.stateOf m := rfl

@[simp] lemma statusOf_record : (w.record entry).statusOf m = w.statusOf m := rfl

@[simp] lemma statusOf_modifyAttempt : (w.modifyAttempt a g).statusOf m = w.statusOf m := rfl

lemma stateOf_upsert : (w.upsert n f).stateOf m
      = if n = m then some (f ((w.stateOf n).getD { nodeId := n })) else w.stateOf m := by
  unfold stateOf
  rw [current?_upsert]
  by_cases h : n = m
  · subst h
    rw [if_pos rfl, if_pos rfl]
    show some ((w.upsert n f).objects n (w.currentOrNext n)) = _
    rw [upsert, objects_install, objects_modifyObject_self, objects_materialize]
    cases hr : w.current? n with
    | none => simp
    | some => simp [currentOrNext, hr]
  rw [if_neg h, if_neg h]
  cases hr : w.current? m with
  | none => rfl
  | some =>
    simp only [Option.map_some, upsert, objects_install]
    rw [objects_modifyObject_ne _ _ _ _ _ _ (.inl (Ne.symm h)), objects_materialize,
      if_neg (fun h' => h h'.1.symm)]

lemma statusOf_modifyObject : (w.modifyObject n r f).statusOf m
      = if m = n ∧ w.current? n = some r then some (f (w.objects n r)).status
        else w.statusOf m := by
  unfold statusOf stateOf
  rw [current?_modifyObject]
  by_cases hm : m = n
  · subst hm
    cases hc : w.current? m with
    | none => simp
    | some k =>
      by_cases hk : k = r
      · subst hk; simp
      simp [hk, objects_modifyObject]
  cases hc : w.current? m with
  | none => simp [hm]
  | some => simp [hm, objects_modifyObject]

lemma statusOf_install :
    (w.install n r).statusOf m = if n = m then some (w.objects n r).status else w.statusOf m := by
  unfold statusOf stateOf
  rw [current?_install]
  by_cases h : n = m
  · subst h; simp
  rw [if_neg h, if_neg h]; rfl

lemma statusOf_installNew :
    (w.installNew n s).statusOf m = if n = m then some s.status else w.statusOf m := by
  unfold statusOf stateOf
  rw [current?_installNew]
  by_cases h : n = m
  · subst h; simp [objects_installNew]
  rw [if_neg h, if_neg h]
  cases hc : w.current? m with
  | none => rfl
  | some => simp [objects_installNew, Ne.symm h]

lemma statusOf_upsert : (w.upsert n f).statusOf m
      = if n = m then some (f ((w.stateOf n).getD { nodeId := n })).status else w.statusOf m := by
  unfold statusOf
  rw [stateOf_upsert]
  split <;> rfl

lemma statusOf_ensureState : (w.ensureState n).statusOf m
      = if n = m ∧ w.current? n = none then some .pending else w.statusOf m := by
  unfold ensureState
  split
  · rename_i r hr
    rw [hr]
    simp
  rename_i hr
  rw [statusOf_installNew, hr]
  simp

/-! ## The history -/

@[simp] lemma log_record : (w.record entry).log = entry :: w.log := rfl

@[simp] lemma log_upsert : (w.upsert n f).log = w.log := by
  unfold upsert materialize
  split <;> rfl

@[simp] lemma log_ensureState : (w.ensureState n).log = w.log := by
  unfold ensureState
  split <;> rfl

end DeterminFlow.Runtime.World
