/-
  Engine.FaithfulSequence
  **NODE SEQUENCES KEEP NEWEST OBJECTS INSTALLED.**

  The specification of a node sequence for the invariant `Sound`: what the
  sequence knows of the objects it holds at each place of suspension.  The
  object of an attempt, the object an upstream node is executed again on,
  and the object of the node that waits meanwhile are the newest of their
  nodes, since in an unmixed history nobody else works on these nodes.
-/
import DeterminFlow.Engine.FaithfulSaves

namespace DeterminFlow.Engine

open Library Coop Workflow DeterminFlow.Runtime List Option World NodeExecutionState

/-! ## The logic -/

section
variable (E : Env)

/-- An answer that sends nothing to a live session, and nothing to the node
itself or to a node whose object has been put back. -/
def KeptAnswer (op : Op) (r : Except Exn Resp) (w : World) : Prop :=
  ∀ a, op = .plugin a → (resultOf r).isSome →
    (∀ result, r = .ok (.result result) → ¬ SendsBack E w a result) ∧
    ∀ x, w.attempts[a]? = some x → ∀ u, targetOf E x.node x.rejected = some u →
      u ≠ x.node ∧ ¬ PutBack w u

def keptLogic : Logic (engineMachine E) where
  inv w := Unmixed E w.log → Sound E w
  guar t w w' := Promise E t w w'
  kidPre _ _ _ := True
  kidPost _ _ _ _ := True
  answerOk _ op r w := KeptAnswer E op r w
  eventOk _ _ _ _ := True
  cancelOk _ := True

variable {E}

lemma keptLogic_saveLaws : SaveLaws (keptLogic E) where
  guar_core t w w' h :=
    .of_same (log_of_core h).symm (allocated_of_core h).symm (objects_of_core h).symm
      (attempts_of_core h).symm
  guar_note _ := .of_same rfl rfl rfl rfl
  inv_idle w w' hstep hw hunmixed := by
    have halike := hstep.alike
    rw [halike.log] at hunmixed
    exact (hw hunmixed).alike halike
  inv_snapshot _ _ hw _ hunmixed := (hw hunmixed).takeSnapshot
  inv_note _ hw hunmixed := (hw hunmixed).alike ⟨rfl, rfl, fun _ => rfl, rfl, rfl, rfl⟩

lemma exists_other (t : Thread) : ∃ t' : Thread, t' ≠ t := by
  cases t with
  | main => exact ⟨.kid 0, by simp⟩
  | kid => exact ⟨.main, by simp⟩

lemma stands_of_promise {t : Thread} {Γ : Ctx engineSig} {P : World → Prop}
    (hP : ∀ t' w w', t' ≠ t → Promise E t' w w' → P w → P w') : Stands (keptLogic E) t Γ P where
  steady w w' hcore hw := by
    obtain ⟨t', hne⟩ := exists_other t
    exact hP t' w w' hne (keptLogic_saveLaws.guar_core t' w w' hcore) hw
  stable t' w w' hriv _ _ hguar hw := hP t' w w' hriv.ne hguar hw

end

/-! ## What a sequence knows -/

section
variable (E : Env) (t : Thread)

def Place.work (target : Option String) : Place → Work
  | .own _ node _ => .visiting node.id (targetOf E node.id target)
  | .upstream _ node _ rejected _ => .retrying node.id rejected.id

def Place.Waiting (w : World) : Place → Prop
  | .own .. => True
  | .upstream _ node r rejected _ => r + 1 = w.allocated node.id ∧ node.id ≠ rejected.id

/-- While an attempt runs. -/
structure Begun (p : Place) (a live : Nat) (w : World) : Prop where
  work : workOf E t w.log = p.work E ((w.attempts[a]?).bind (·.rejected))
  newest : live + 1 = w.allocated p.target.id
  running : 1 ≤ (w.objects p.target.id live).attemptCount ∧ ∃ input,
    runningAttempt p.target.id w.log = some ((w.objects p.target.id live).attemptCount, input) ∧
      SameInput (w.objects p.target.id live).inputSnapshot input
  target : ∀ u, targetOf E p.target.id ((w.attempts[a]?).bind (·.rejected)) = some u →
    0 < w.allocated u
  waiting : p.Waiting w

/-- Before a rejected upstream node is executed again on object `k`. -/
structure Retrying (node : WorkflowNode) (r : Nat) (upstream : WorkflowNode) (k : Nat)
    (w : World) : Prop where
  work : workOf E t w.log = .retrying node.id upstream.id
  newest : k + 1 = w.allocated upstream.id
  waiting : r + 1 = w.allocated node.id ∧ node.id ≠ upstream.id
  known : E.node? upstream.id = some upstream

/-- Before a node is skipped with its upstream node. -/
structure Skipping (node : WorkflowNode) (r : Nat) (w : World) : Prop where
  work : workOf E t w.log = .held node.id
  newest : r + 1 = w.allocated node.id

def keptSpot (ids : List String) : Spot → World → Prop
  | .begun p a live _, w =>
    AttemptAt E t ids p a live w ∧ (Unmixed E w.log → Begun E t p a live w)
  | .retrying _ node r upstream k, w => Unmixed E w.log → Retrying E t node r upstream k w
  | .skipping _ node r, w => Unmixed E w.log → Skipping E t node r w
  | .sending .., _ => False
  | _, _ => True

/-- Between entering a node and beginning its attempt. -/
structure Ready (p : Place) (w : World) : Prop where
  base : Base E w
  others : ∀ m, m ≠ p.target.id → RunningKept w m
  entries : ∀ m, EntryKept w m
  work : workOf E t w.log = p.work E none
  known : E.node? p.target.id = some p.target
  object : w.current? p.target.id = some p.object ∨ p.object + 1 = w.allocated p.target.id
  bound : p.object < w.allocated p.target.id
  grows : ∀ k, k < w.allocated p.target.id →
    (w.objects p.target.id k).attemptCount ≤ (w.objects p.target.id p.object).attemptCount + 1
  waiting : p.Waiting w

def Place.After (e : Executed) (w : World) : Place → Prop
  | .own _ node _ => ∀ u, targetOf E node.id e.rejected = some u →
      u ≠ node.id ∧ workOf E t w.log = .retrying node.id u ∧
        ∀ k, w.current? u = some k → k + 1 = w.allocated u
  | .upstream _ node r rejected _ => r + 1 = w.allocated node.id ∧ node.id ≠ rejected.id ∧
      Alone E t node.id w ∧
      ((w.objects rejected.id e.object).status = .failed → workOf E t w.log = .held node.id)

/-- Between the end of an attempt and the installation of its object. -/
structure Ended (p : Place) (e : Executed) (w : World) : Prop where
  sound : Sound E (w.install p.target.id e.object)
  newest : e.object + 1 = w.allocated p.target.id
  alone : Alone E t p.target.id w
  after : p.After E t e w

/-- After the installation of the object. -/
structure Installed (node : WorkflowNode) (r : Nat) (w : World) : Prop where
  sound : Sound E w
  newest : r + 1 = w.allocated node.id
  alone : Alone E t node.id w

variable {E t}

lemma targetOf_none (nodeId : String) : targetOf E nodeId none = none := rfl

lemma Place.mem_work (p : Place) (rejected : Option String) :
    p.target.id ∈ (p.work E rejected).nodes := by
  cases p <;> simp [Place.work, Place.target, Work.nodes]

variable {w' w : World} {p : Place} {t' : Thread} {live a : Nat}

lemma Place.Waiting.kept {rejected : Option String} (h : p.Waiting w)
    (huntouched : ∀ n ∈ (p.work E rejected).nodes, Untouched n w w') : p.Waiting w' := by
  cases p with
  | own => trivial
  | upstream i node =>
    refine ⟨?_, h.2⟩
    rw [(huntouched node.id (by simp [Place.work, Work.nodes])).allocated]
    exact h.1

lemma Begun.kept {ids : List String} (h : Begun E t p a live w)
    (hattempt : AttemptAt E t ids p a live w) (hne : t' ≠ t) (hpromise : Promise E t' w w')
    (hunmixed : Unmixed E w'.log) : Begun E t p a live w' := by
  obtain ⟨x, hx, howner, _⟩ := hattempt
  have hsame : w'.attempts[a]? = w.attempts[a]? := by
    rw [hx]
    exact hpromise.attempts a x hx (by rw [howner]; exact hne.symm)
  have huntouched : ∀ n ∈ (p.work E ((w.attempts[a]?).bind (·.rejected))).nodes,
      Untouched n w w' := by
    intro n hn
    exact hpromise.untouched hunmixed t hne.symm n (by rw [h.work]; exact hn)
  have htarget := huntouched p.target.id (p.mem_work _)
  have hcount := hpromise.counts p.target.id live (by rw [← h.newest]; exact Nat.lt_succ_self _)
  constructor
  case work => rw [hpromise.works t hne.symm, h.work, hsame]
  case newest => rw [htarget.allocated, h.newest]
  case running =>
    rw [hcount, htarget.running, htarget.inputs]
    exact h.running
  case target =>
    rw [hsame]
    exact fun u hu => (h.target u hu).trans_le (hpromise.allocated u)
  case waiting => exact h.waiting.kept huntouched

lemma AttemptAt.promised {ids : List String} (h : AttemptAt E t ids p a live w) (hne : t' ≠ t)
    (hpromise : Promise E t' w w') : AttemptAt E t ids p a live w' := by
  obtain ⟨x, hx, howner, hrest⟩ := h
  exact ⟨x, hpromise.attempts a x hx (by rw [howner]; exact hne.symm), howner, hrest⟩

lemma stands_keptSpot {Γ : Ctx engineSig} (ids : List String) (p : Spot) :
    Stands (keptLogic E) t Γ (keptSpot E t ids p) := by
  refine stands_of_promise (fun _ w w' hne hpromise hw => ?_)
  have hold : Unmixed E w'.log → Unmixed E w.log := fun h => h.of_suffix hpromise.log
  cases p with
  | begun =>
    obtain ⟨hattempt, hbegun⟩ := hw
    exact ⟨hattempt.promised hne hpromise,
      fun hunmixed => (hbegun (hold hunmixed)).kept hattempt hne hpromise hunmixed⟩
  | retrying i node r upstream =>
    intro hunmixed
    have h := hw (hold hunmixed)
    have huntouched := hpromise.untouched hunmixed t hne.symm
    rw [h.work] at huntouched
    have hupstream := huntouched upstream.id (by simp [Work.nodes])
    have hnode := huntouched node.id (by simp [Work.nodes])
    exact ⟨(hpromise.works t hne.symm).trans h.work, h.newest.trans hupstream.allocated.symm,
      ⟨h.waiting.1.trans hnode.allocated.symm, h.waiting.2⟩, h.known⟩
  | skipping i node =>
    intro hunmixed
    have h := hw (hold hunmixed)
    have huntouched := hpromise.untouched hunmixed t hne.symm
    rw [h.work] at huntouched
    have hnode := huntouched node.id (by simp [Work.nodes])
    exact ⟨(hpromise.works t hne.symm).trans h.work, h.newest.trans hnode.allocated.symm⟩
  | sending => exact hw
  | _ => trivial

/-! ## The beginning of an attempt -/

lemma promise_enterNode (hinv : Unmixed E w.log → Sound E w) (n : String) :
    Promise E t w (enterNode t n w) := by
  have hcurrent : Promise E t w { w with task := { w.task with currentNodeId := some n } } :=
    .of_same rfl rfl rfl rfl
  have hupsert : Promise E t { w with task := { w.task with currentNodeId := some n } }
      ({ w with task := { w.task with currentNodeId := some n } }.upsert n
        (fun s => { s with status := .running })) := by
    refine promise_upsert (fun hunmixed => ?_) n (fun _ => rfl) (fun _ => rfl)
    exact (hinv hunmixed).toBase.alike ⟨rfl, rfl, fun _ => rfl, rfl, rfl, rfl⟩
  refine (hcurrent.trans hupsert).trans (promise_record _ ?_ (fun _ _ _ _ _ => rfl))
  intro _ hne
  simp [workOf, hne.symm]

lemma ready_enterNode {i : Nat} {node : WorkflowNode} (h : Sound E w)
    (hnode : E.node? node.id = some node) :
    Ready E t (.own i node (w.currentOrNext node.id)) (enterNode t node.id w) := by
  have h₀ : Sound E { w with task := { w.task with currentNodeId := some node.id } } :=
    h.alike ⟨rfl, rfl, fun _ => rfl, rfl, rfl, rfl⟩
  obtain ⟨w₁, h₁, hcur, _, heq⟩ := h₀.exists_upsert node.id
  have henter : enterNode t node.id w = (w₁.modifyObject node.id (w.currentOrNext node.id)
      (fun s => { s with status := .running })).record (.entered t node.id) := by
    unfold enterNode
    rw [heq]
    rfl
  replace hcur : w₁.current? node.id = some (w.currentOrNext node.id) := hcur
  have hbound := h₁.entry node.id _ hcur
  have hcount : ∀ (m : String) (k : Nat), ((w₁.modifyObject node.id (w.currentOrNext node.id)
      (fun s => { s with status := .running })).objects m k).attemptCount
        = (w₁.objects m k).attemptCount :=
    count_modifyObject w₁ node.id _ (fun _ => rfl)
  have hworked : ∀ t', ∀ m ∈ (workOf E t' (.entered t node.id :: w₁.log)).nodes,
      0 < w₁.allocated m := by
    intro t' m hm
    by_cases ht : t = t'
    · simp only [workOf, if_pos ht, Work.nodes, mem_singleton] at hm
      rw [hm]
      exact Nat.zero_lt_of_lt hbound
    simp only [workOf, if_neg ht] at hm
    exact h₁.worked t' m hm
  rw [henter]
  constructor
  case base =>
    refine Base.record (Base.modifyObject h₁.toBase node.id _ ?_) hworked
    exact fun _ => rfl
  case others =>
    exact fun m hm => ((h₁.running m).modifyObject_ne hm _ _).record rfl
  case entries => exact h₁.entries
  case work => simp [workOf, Place.work, targetOf_none]
  case known => exact hnode
  case object => exact .inl hcur
  case bound => exact hbound
  case grows =>
    intro k hk
    rw [objects_record, objects_record, hcount, hcount]
    -- the entry is the newest object, or one attempt behind it
    rcases h₁.entries node.id _ hcur with hnew | ⟨x, hx, hxnode, -, houter, hlive⟩
    · have hle : k ≤ w.currentOrNext node.id := by
        have hk' : k < w₁.allocated node.id := hk
        omega
      exact (h₁.grow node.id k _ hle hbound).trans (Nat.le_succ _)
    obtain ⟨-, hbound', hnext⟩ := h₁.outer x hx _ houter
    rw [hxnode] at hbound' hnext
    have hle : k ≤ x.live := by
      have hk' : k < w₁.allocated node.id := hk
      omega
    exact (h₁.grow node.id k x.live hle hbound').trans hnext.le
  case waiting => trivial

lemma inputSnapshot_begunState (node : WorkflowNode) (r : Nat) (w : World) :
    (begunState E node r w).inputSnapshot
      = (attemptInput E w node.id (w.objects node.id r)).1 := by
  have hfreezes : (w.objects node.id r).freezesInput = true ↔
      ¬ (0 < (w.objects node.id r).attemptCount ∧
        (w.objects node.id r).nextAttemptTrigger ≠ .initial) := by
    unfold freezesInput
    rw [Bool.or_eq_true, beq_iff_eq, beq_iff_eq, not_and_or, not_not, Nat.pos_iff_ne_zero, not_not]
  unfold begunState beginAttempt attemptInput
  dsimp only
  by_cases hcase : 0 < (w.objects node.id r).attemptCount ∧
      (w.objects node.id r).nextAttemptTrigger ≠ .initial
  · rw [if_neg (fun h => hfreezes.1 h hcase), if_pos hcase]
  rw [if_pos (hfreezes.2 hcase), if_neg hcase]

section
variable {p : Place} {call : Call} {w : World}

lemma beginNodeAttempt_eq (node : WorkflowNode) (r : Nat) : beginNodeAttempt E t node r call w
      = ({ w.installNew node.id (begunState E node r w) with
            attempts := w.attempts ++ [newAttempt E t node r call w] }).record
          (.began t node.id (begunState E node r w).attemptCount
            (newAttempt E t node r call w).input) := rfl

lemma promise_begin (h : Unmixed E w.log → Ready E t p w) :
    Promise E t w (beginNodeAttempt E t p.target p.object call w) := by
  have halone : Unmixed E w.log → Alone E t p.target.id w := fun hunmixed =>
    alone_of_mem hunmixed (by rw [(h hunmixed).work]; exact p.mem_work none)
  rw [beginNodeAttempt_eq]
  refine Promise.trans ((promise_installNew w (begunState E p.target p.object w) halone).trans ?_)
    (promise_record _ (fun _ _ => rfl) ?_)
  · refine .of_log rfl (fun _ => le_rfl) (fun _ _ _ => rfl) ?_ (fun _ _ _ _ _ => ⟨rfl, fun _ => rfl⟩)
    intro a _ hx _
    have hlt : a < w.attempts.length := (List.getElem?_eq_some_iff.1 hx).1
    exact (getElem?_append_left hlt).trans hx
  intro hunmixed t' hne n hn
  have hother : p.target.id ≠ n := by
    rintro rfl
    exact halone hunmixed.rest t' hne hn
  simp [runningAttempt, hother]

lemma ready_begin (h : Ready E t p w) (houter : call.outer = p.outer)
    (hreg : E.registered (nodeTypeOf p.target) = true) :
    Sound E (beginNodeAttempt E t p.target p.object call w) ∧
      Begun E t p w.attempts.length (w.allocated p.target.id)
        (beginNodeAttempt E t p.target p.object call w) := by
  have hbase : Base E (w.installNew p.target.id (begunState E p.target p.object w)) :=
    h.base.installNew h.grows
  have hnew : (w.installNew p.target.id (begunState E p.target p.object w)).objects p.target.id
      (w.allocated p.target.id) = begunState E p.target p.object w := by
    rw [objects_installNew, if_pos ⟨rfl, rfl⟩]
  have hallocated := allocated_installNew w p.target.id (begunState E p.target p.object w)
  have hrunning : 1 ≤ ((w.installNew p.target.id (begunState E p.target p.object w)).objects
        p.target.id (w.allocated p.target.id)).attemptCount ∧ ∃ input,
      runningAttempt p.target.id (.began t p.target.id
          (begunState E p.target p.object w).attemptCount
          (newAttempt E t p.target p.object call w).input :: w.log)
        = some (((w.installNew p.target.id (begunState E p.target p.object w)).objects
            p.target.id (w.allocated p.target.id)).attemptCount, input) ∧
      SameInput ((w.installNew p.target.id (begunState E p.target p.object w)).objects
        p.target.id (w.allocated p.target.id)).inputSnapshot input := by
    rw [hnew]
    refine ⟨Nat.succ_pos _, (newAttempt E t p.target p.object call w).input, ?_, ?_⟩
    · simp [runningAttempt]
    intro _ _
    rw [inputSnapshot_begunState]
    rfl
  rw [beginNodeAttempt_eq]
  refine ⟨?_, ?_⟩
  · constructor
    case toBase =>
      refine { entry := hbase.entry, absent := hbase.absent, grow := hbase.grow,
               worked := hbase.worked, saved := hbase.saved, outer := ?_, known := ?_ }
      · intro x hx k hk
        rcases mem_append.1 hx with hx | hx
        · exact hbase.outer x hx k hk
        obtain rfl := mem_singleton.1 hx
        have hplace : p.outer = some k := houter.symm.trans hk
        have hobject : p.object = k := by
          cases p with
          | own => exact some.inj hplace
          | upstream => cases hplace
        subst hobject
        refine ⟨?_, ?_, ?_⟩
        · exact h.bound.trans_le ((hallocated p.target.id).trans (if_pos rfl) ▸ Nat.le_succ _)
        · exact (Nat.lt_succ_self _).trans_eq ((hallocated p.target.id).trans (if_pos rfl)).symm
        have hold : (w.installNew p.target.id (begunState E p.target p.object w)).objects
            p.target.id p.object = w.objects p.target.id p.object := by
          rw [objects_installNew, if_neg (fun hcase => h.bound.ne hcase.2)]
        change ((w.installNew p.target.id (begunState E p.target p.object w)).objects
          p.target.id (w.allocated p.target.id)).attemptCount
            = ((w.installNew p.target.id (begunState E p.target p.object w)).objects
                p.target.id p.object).attemptCount + 1
        rw [hnew, hold]
        rfl
      intro x hx
      rcases mem_append.1 hx with hx | hx
      · exact h.base.known x hx
      obtain rfl := mem_singleton.1 hx
      exact ⟨p.target, h.known, hreg⟩
    case running =>
      intro m
      by_cases hm : m = p.target.id
      · subst hm
        intro k hk _
        have hk' : k = w.allocated p.target.id := by
          have hsucc : k + 1 = w.allocated p.target.id + 1 :=
            hk.trans ((hallocated _).trans (if_pos rfl))
          omega
        subst hk'
        exact hrunning
      have hother := (h.others m hm).installNew_ne hm (begunState E p.target p.object w)
      exact hother.record (by simp [runningAttempt, Ne.symm hm])
    case entries =>
      intro m k hk
      rcases EntryKept.installNew (fun m _ => h.entries m) (begunState E p.target p.object w) m k hk
        with hnewest | ⟨x, hx, hrest⟩
      · exact .inl hnewest
      exact .inr ⟨x, mem_append_left _ hx, hrest⟩
  have hget : (w.attempts ++ [newAttempt E t p.target p.object call w])[w.attempts.length]?
      = some (newAttempt E t p.target p.object call w) := getElem?_concat_length
  constructor
  case work =>
    change workOf E t w.log = p.work E ((((w.attempts ++ [_])[w.attempts.length]?)).bind _)
    rw [hget]
    exact h.work
  case newest => exact ((hallocated _).trans (if_pos rfl)).symm
  case running => exact hrunning
  case target =>
    intro u hu
    change targetOf E p.target.id ((((w.attempts ++ [_])[w.attempts.length]?)).bind _)
      = some u at hu
    rw [hget] at hu
    cases hu
  case waiting =>
    have hwaiting := h.waiting
    cases p with
    | own => trivial
    | upstream i node =>
      refine ⟨?_, hwaiting.2⟩
      exact hwaiting.1.trans ((hallocated node.id).trans (if_neg hwaiting.2)).symm

end

/-! ## The end of an attempt -/

section
variable {p : Place} {w : World}

lemma promise_ended (w : World) (n : String) (status : NodeStatus)
    (halone : Unmixed E w.log → Alone E t n w) : Promise E t w (w.record (.ended t n status)) := by
  refine promise_record w ?_ ?_
  · intro t' hne
    simp [workOf, hne.symm]
  intro hunmixed t' hne m hm
  have hother : n ≠ m := by
    rintro rfl
    exact halone hunmixed.rest t' hne hm
  simp [runningAttempt, hother]

lemma worked_ended (h : Base E w) (n : String) (status : NodeStatus)
    (htarget : ∀ m u, workOf E t w.log = .visiting m (some u) → 0 < w.allocated u) (t' : Thread) :
    ∀ m ∈ (workOf E t' (.ended t n status :: w.log)).nodes, 0 < w.allocated m := by
  intro m hm
  have hold : ∀ k ∈ (workOf E t w.log).nodes, 0 < w.allocated k := h.worked t
  by_cases ht : t = t'
  · simp only [workOf, if_pos ht] at hm
    rw [← ht] at hm
    cases hwork : workOf E t w.log with
    | visiting k target =>
      cases target with
      | none => simp [hwork, Work.ended, Work.nodes] at hm
      | some u =>
        have hk := hold k (by simp [hwork, Work.nodes])
        have hu := htarget k u hwork
        simp only [hwork, Work.ended, Work.nodes, mem_cons, not_mem_nil, or_false] at hm
        rcases hm with rfl | rfl
        · exact hk
        exact hu
    | retrying k =>
      have hk := hold k (by simp [hwork, Work.nodes])
      by_cases hstatus : status = .failed
      · simp only [hwork, Work.ended, hstatus, if_true, Work.nodes, mem_singleton] at hm
        rw [hm]
        exact hk
      simp [hwork, Work.ended, hstatus, Work.nodes] at hm
    | _ => simp [hwork, Work.ended, Work.nodes] at hm
  simp only [workOf, if_neg ht] at hm
  exact h.worked t' m hm

variable {n : String}

lemma runningAttempt_ended_ne {m : String} (hm : m ≠ n) (status : NodeStatus)
    (log : List LogEntry) : runningAttempt m (.ended t n status :: log) = runningAttempt m log := by
  simp [runningAttempt, Ne.symm hm]

lemma workOf_ended (n : String) (status : NodeStatus) (log : List LogEntry) :
    workOf E t (.ended t n status :: log) = (workOf E t log).ended status := by
  simp [workOf]

lemma Ready.alone (h : Ready E t p w) (hunmixed : Unmixed E w.log) : Alone E t p.target.id w :=
  alone_of_mem hunmixed (by rw [h.work]; exact p.mem_work none)

lemma Ready.newest (h : Ready E t p w) (hreg : E.registered (nodeTypeOf p.target) = false) :
    p.object + 1 = w.allocated p.target.id := by
  rcases h.object with hcur | hnew
  · rcases h.entries p.target.id p.object hcur with hnew | ⟨x, hx, hnode, -⟩
    · exact hnew
    obtain ⟨_, hget, hregistered⟩ := h.base.known x hx
    rw [hnode, h.known] at hget
    obtain rfl := some.inj hget
    rw [hreg] at hregistered
    cases hregistered
  exact hnew

lemma promise_failUnknown (h : Unmixed E w.log → Ready E t p w) :
    Promise E t w (failUnknownType t p.target p.object w) := by
  unfold failUnknownType
  refine Promise.trans (promise_modifyObject w p.object ?_ ?_)
    (promise_ended _ p.target.id .failed (fun hunmixed => (h hunmixed).alone hunmixed))
  · exact fun _ => rfl
  exact fun _ => .inl (fun _ => rfl)

lemma ended_failUnknown (h : Ready E t p w) (hunmixed : Unmixed E w.log)
    (hreg : E.registered (nodeTypeOf p.target) = false) : Ended E t p { object :=p.object, rejected := none }
      (failUnknownType t p.target p.object w) := by
  have hnewest := h.newest hreg
  have hwork : workOf E t (failUnknownType t p.target p.object w).log
      = (p.work E none).ended .failed :=
    (workOf_ended p.target.id .failed w.log).trans (by rw [h.work])
  have hobject : ((failUnknownType t p.target p.object w).objects p.target.id p.object).status
      = .failed := by
    unfold failUnknownType
    rw [objects_record, objects_modifyObject_self]
  have hpromise := promise_failUnknown (fun _ => h)
  have hbase : Base E (failUnknownType t p.target p.object w) := by
    refine Base.record (Base.modifyObject h.base p.target.id p.object ?_) (fun t' => ?_)
    · exact fun _ => rfl
    refine worked_ended (w := w) h.base p.target.id .failed (fun m u hvisit => ?_) t'
    rw [h.work] at hvisit
    cases p with
    | own => simp [Place.work, targetOf_none] at hvisit
    | upstream => simp [Place.work] at hvisit
  constructor
  case sound =>
    refine ⟨hbase.install h.bound, fun m => ?_, EntryKept.install (fun m _ => h.entries m) hnewest⟩
    by_cases hm : m = p.target.id
    · subst hm
      exact runningKept_of_newest (r := p.object) hnewest (by
        rw [objects_install, hobject]
        simp)
    have hother : RunningKept (failUnknownType t p.target p.object w) m := by
      unfold failUnknownType
      exact RunningKept.record (RunningKept.modifyObject_ne (h.others m hm) hm p.object _)
        (runningAttempt_ended_ne hm .failed w.log)
    exact hother
  case newest => exact hnewest
  case alone => exact hpromise.alone (h.alone hunmixed)
  case after =>
    have hwaiting := h.waiting
    cases p with
    | own => exact nofun
    | upstream =>
      refine ⟨hwaiting.1, hwaiting.2, ?_, fun _ => hwork⟩
      refine hpromise.alone (alone_of_mem hunmixed ?_)
      rw [h.work]
      simp [Place.work, Work.nodes]

lemma alike_finishAttempt (n : String) (live : Nat) (previous : NodeExecutionState)
    (result : NodeResult) (w : World) :
    Alike (((w.modifyObject n live (applyResult w.clock previous result)).installNew n
        (applyResult w.clock previous result (w.objects n live)).recordAttempt).record
          (.ended t n result.status.normalize))
      ((finishAttempt t n live previous result w).install n (w.allocated n)) := by
  unfold finishAttempt publishOutputs
  dsimp only
  rw [objects_modifyObject_self]
  split <;> exact ⟨rfl, rfl, fun _ => rfl, rfl, rfl, rfl⟩

lemma promise_finishAttempt {live : Nat} {previous : NodeExecutionState} {result : NodeResult}
    (halone : Unmixed E w.log → Alone E t n w) :
    Promise E t w (finishAttempt t n live previous result w) := by
  have hinstalled : Promise E t w (((w.modifyObject n live
      (applyResult w.clock previous result)).installNew n
        (applyResult w.clock previous result (w.objects n live)).recordAttempt).record
          (.ended t n result.status.normalize)) := by
    refine Promise.trans (Promise.trans (promise_modifyObject w live ?_ ?_)
      (promise_installNew _ _ halone)) (promise_ended _ n _ ?_)
    · exact fun _ => rfl
    · exact fun _ => .inl (fun _ => rfl)
    exact fun hu => halone hu
  have hfinish : Promise E t
      ((finishAttempt t n live previous result w).install n (w.allocated n))
      (finishAttempt t n live previous result w) := .of_same rfl rfl rfl rfl
  exact (hinstalled.trans ((alike_finishAttempt n live previous result w).promise t)).trans hfinish

variable {a live : Nat} {previous : NodeExecutionState} {result : NodeResult}

lemma Begun.alone (h : Begun E t p a live w) (hunmixed : Unmixed E w.log) :
    Alone E t p.target.id w :=
  alone_of_mem hunmixed (by rw [h.work]; exact p.mem_work _)

lemma sound_finishAttempt (h : Begun E t p a live w) (hw : Sound E w) :
    Sound E ((finishAttempt t p.target.id live previous result w).install p.target.id
      (w.allocated p.target.id)) := by
  refine Sound.alike ?_ (alike_finishAttempt p.target.id live previous result w)
  have hstatus : ∀ s, (applyResult w.clock previous result s).status ≠ .running := by
    intro s
    change result.status.normalize ≠ .running
    cases result.status <;> simp [ResultStatus.normalize]
  have hlive : Sound E (w.modifyObject p.target.id live (applyResult w.clock previous result)) :=
    hw.modifyObject p.target.id live (fun _ => rfl) (fun s hs => absurd hs (hstatus s))
  have hcopy : Sound E ((w.modifyObject p.target.id live
      (applyResult w.clock previous result)).installNew p.target.id
        (applyResult w.clock previous result (w.objects p.target.id live)).recordAttempt) := by
    refine hlive.installNew (fun r hr => ?_) ?_
    · rw [count_modifyObject w p.target.id live (f := applyResult w.clock previous result)
        (fun _ => rfl)]
      have hr' : r < w.allocated p.target.id := hr
      have hle : r ≤ live := by
        have := h.newest
        omega
      exact hw.grow p.target.id r live hle (by rw [← h.newest]; exact Nat.lt_succ_self live)
    exact result.status.normalize_ne_running
  have hother : ∀ m, m ≠ p.target.id → RunningKept _ m := fun m hm =>
    (hcopy.running m).record (runningAttempt_ended_ne (t := t) hm result.status.normalize _)
  refine ⟨hcopy.toBase.record ?_, fun m => ?_, hcopy.entries⟩
  · refine fun t' => worked_ended hcopy.toBase p.target.id result.status.normalize
      (fun m u hvisit => ?_) t'
    replace hvisit : workOf E t w.log = .visiting m (some u) := hvisit
    rw [h.work] at hvisit
    cases p with
    | own i node r =>
      simp only [Place.work, Work.visiting.injEq] at hvisit
      refine (h.target u hvisit.2).trans_le ?_
      rw [allocated_installNew]
      split
      · rename_i hcase
        rw [hcase]
        exact Nat.le_succ _
      exact le_rfl
    | upstream => simp [Place.work] at hvisit
  by_cases hm : m = p.target.id
  · subst hm
    refine runningKept_of_newest (r := w.allocated p.target.id) ?_ ?_
    · rw [allocated_record, allocated_installNew, if_pos rfl]
      rfl
    rw [objects_record, objects_installNew]
    rw [if_pos ⟨rfl, rfl⟩]
    exact result.status.normalize_ne_running
  exact hother m hm

lemma ended_finishAttempt {ids : List String} {r : Except Exn Resp}
    (hattempt : AttemptAt E t ids p a live w) (h : Begun E t p a live w) (hw : Sound E w)
    (hunmixed : Unmixed E w.log) (hok : KeptAnswer E (.plugin a) r w)
    (hresult : resultOf r = some result) : Ended E t p
      { object := w.allocated p.target.id, rejected := (w.attempts[a]?).bind (·.rejected) }
      (finishAttempt t p.target.id live previous result w) := by
  have hpromise : Promise E t w (finishAttempt t p.target.id live previous result w) :=
    promise_finishAttempt (fun hu => h.alone hu)
  have hlog : (finishAttempt t p.target.id live previous result w).log
      = .ended t p.target.id result.status.normalize :: w.log :=
    (alike_finishAttempt (t := t) p.target.id live previous result w).log
  have hallocated : ∀ m, (finishAttempt t p.target.id live previous result w).allocated m
      = if m = p.target.id then w.allocated p.target.id + 1 else w.allocated m := by
    intro m
    have hsame := (alike_finishAttempt (t := t) p.target.id live previous result w).allocated
    exact (congrFun hsame m).trans (allocated_installNew _ p.target.id
      (applyResult w.clock previous result (w.objects p.target.id live)).recordAttempt m)
  have hwork : workOf E t (finishAttempt t p.target.id live previous result w).log
      = (p.work E ((w.attempts[a]?).bind (·.rejected))).ended result.status.normalize := by
    rw [hlog, workOf_ended, h.work]
  constructor
  case sound => exact sound_finishAttempt h hw
  case newest => exact ((hallocated _).trans (if_pos rfl)).symm
  case alone => exact hpromise.alone (h.alone hunmixed)
  case after =>
    have hwaiting := h.waiting
    cases p with
    | own i node =>
      intro u hu
      obtain ⟨x, hx, -, hnode, -⟩ := hattempt
      have htarget : targetOf E x.node x.rejected = some u := by
        rw [hnode]
        have hrejected : (w.attempts[a]?).bind (·.rejected) = x.rejected := by rw [hx]; rfl
        rw [← hrejected]
        exact hu
      obtain ⟨hother, hback⟩ := (hok a rfl (by rw [hresult]; rfl)).2 x hx u htarget
      rw [hnode] at hother
      refine ⟨hother, ?_, fun k hk => ?_⟩
      · rw [hwork]
        simp only [Place.work] at hu ⊢
        rw [hu]
        rfl
      rw [current?_finishAttempt] at hk
      rw [hallocated, if_neg hother]
      -- the entry of the rejected node has not been put back
      rcases hw.entries u k hk with hnew | ⟨y, hy, hynode, hyrejected, hyouter, -⟩
      · exact hnew
      exact absurd ⟨y, hy, hynode, hyrejected, by rw [hyouter]; rfl, by rw [hk, hyouter]⟩ hback
    | upstream i node =>
      refine ⟨?_, hwaiting.2, ?_, fun hfailed => ?_⟩
      · exact hwaiting.1.trans ((hallocated node.id).trans (if_neg hwaiting.2)).symm
      · refine hpromise.alone (alone_of_mem hunmixed ?_)
        rw [h.work]
        simp [Place.work, Work.nodes]
      rw [hwork]
      dsimp only [Place.target] at hfailed
      rw [object_finishAttempt] at hfailed
      have hstatus : result.status.normalize = .failed := by
        replace hfailed : result.status.normalize.normalize = .failed := hfailed
        revert hfailed
        cases result.status <;> simp [ResultStatus.normalize, NodeStatus.normalize]
      simp [Place.work, Work.ended, hstatus]

end

/-! ## While an attempt runs -/

section
variable {ids : List String} {p : Place} {a live : Nat} {previous : NodeExecutionState}
  {w w' : World}

abbrev KeptEvent (E : Env) (t : Thread) (ids : List String) (p : Place) (a live : Nat)
    (previous : NodeExecutionState) (w w' : World) : Prop :=
  Promise E t w w' ∧ (Unmixed E w'.log → Sound E w') ∧
    keptSpot E t ids (.begun p a live previous) w'

lemma kept_alike (hinv : Unmixed E w.log → Sound E w)
    (hw : keptSpot E t ids (.begun p a live previous) w) (h : Alike w w') :
    KeptEvent E t ids p a live previous w w' := by
  obtain ⟨t', hne⟩ := exists_other t
  refine ⟨h.promise t, fun hunmixed => ?_, ?_⟩
  · rw [h.log] at hunmixed
    exact (hinv hunmixed).alike h
  refine ⟨hw.1.promised hne (h.promise t'), fun hunmixed => ?_⟩
  have hbegun := hw.2 (by rwa [h.log] at hunmixed)
  exact hbegun.kept hw.1 hne (h.promise t') hunmixed

variable {x : Attempt} {upstreamId targetNodeId : String}

lemma promise_modifyAttempt (hx : w.attempts[a]? = some x) (howner : x.owner = t)
    (g : Attempt → Attempt) : Promise E t w (w.modifyAttempt a g) := by
  refine .of_log rfl (fun _ => le_rfl) (fun _ _ _ => rfl) ?_ (fun _ _ _ _ _ => ⟨rfl, fun _ => rfl⟩)
  intro b _ hy hne
  have hab : a ≠ b := by
    rintro rfl
    rw [hx] at hy
    exact hne (by rw [← some.inj hy, howner])
  simp [World.modifyAttempt, hab, hy]

lemma kept_modifyAttempt {g : Attempt → Attempt} (hinv : Unmixed E w.log → Sound E w)
    (hw : keptSpot E t ids (.begun p a live previous) w)
    (hfixed : ∀ x, fixedPart (g x) = fixedPart x) (hrejected : ∀ x, (g x).rejected = x.rejected) :
    KeptEvent E t ids p a live previous w (w.modifyAttempt a g) := by
  obtain ⟨x, hx, howner, -⟩ := hw.1
  have hget : ((w.modifyAttempt a g).attempts[a]?).bind (·.rejected)
      = (w.attempts[a]?).bind (·.rejected) := by
    simp only [World.modifyAttempt, getElem?_modify, hx]
    simp [hrejected]
  refine ⟨promise_modifyAttempt hx howner g, fun hunmixed => ?_,
    hw.1.kept E t ids (.modifyAttempt w a hfixed), fun hunmixed => ?_⟩
  · exact (hinv hunmixed).modifyAttempt a hfixed (fun x hx => by rw [hrejected]; exact hx)
  have h := hw.2 hunmixed
  exact ⟨h.work.trans (by rw [hget]), h.newest, h.running, by rw [hget]; exact h.target,
    h.waiting⟩

lemma KeptEvent.trans {w'' : World} (h : KeptEvent E t ids p a live previous w w')
    (h' : (Unmixed E w'.log → Sound E w') → keptSpot E t ids (.begun p a live previous) w' →
      KeptEvent E t ids p a live previous w' w'') : KeptEvent E t ids p a live previous w w'' := by
  obtain ⟨hpromise, hinv, hspot⟩ := h' h.2.1 h.2.2
  exact ⟨h.1.trans hpromise, hinv, hspot⟩

lemma attemptCount_apply (patch : LivePatch) (s : NodeExecutionState) :
    (patch.apply s).attemptCount = s.attemptCount := by
  cases patch <;> rfl

lemma sameInput_apply (patch : LivePatch) {s : NodeExecutionState} {input : Pool}
    (h : SameInput s.inputSnapshot input) : SameInput (patch.apply s).inputSnapshot input := by
  cases patch with
  | subprocessSnapshot =>
    intro key hkey
    refine Eq.trans ?_ (h key hkey)
    exact (Dict.get?_set _ _ _ _).trans (if_neg (Ne.symm hkey))
  | _ => exact h

lemma kept_patch (hx : w.attempts[a]? = some x) (hinv : Unmixed E w.log → Sound E w)
    (hw : keptSpot E t ids (.begun p a live previous) w) (patch : LivePatch) :
    KeptEvent E t ids p a live previous w (w.modifyObject x.node x.live patch.apply) := by
  obtain ⟨_, hy, _, hnode, hlive, -⟩ := hw.1
  obtain rfl := some.inj (hx.symm.trans hy)
  rw [hnode, hlive]
  have hrunning : Unmixed E w.log →
      1 ≤ ((w.modifyObject p.target.id live patch.apply).objects p.target.id live).attemptCount ∧
      ∃ input, runningAttempt p.target.id w.log = some (((w.modifyObject p.target.id live
          patch.apply).objects p.target.id live).attemptCount, input) ∧
        SameInput ((w.modifyObject p.target.id live patch.apply).objects p.target.id
          live).inputSnapshot input := by
    intro hunmixed
    obtain ⟨hpos, input, hrun, hinput⟩ := (hw.2 hunmixed).running
    rw [objects_modifyObject_self, attemptCount_apply]
    exact ⟨hpos, input, hrun, sameInput_apply patch hinput⟩
  refine ⟨?_, fun hunmixed => ?_, ?_, fun hunmixed => ?_⟩
  · exact promise_modifyObject w live (attemptCount_apply patch)
      (fun hunmixed => .inr ((hw.2 hunmixed).alone hunmixed))
  · have hsound := hinv hunmixed
    have hbegun := hw.2 hunmixed
    refine ⟨hsound.toBase.modifyObject _ live (attemptCount_apply patch), fun m => ?_,
      hsound.entries⟩
    by_cases hm : m = p.target.id
    · subst hm
      intro k hk _
      have hk' : k + 1 = w.allocated p.target.id := hk
      obtain rfl : k = live := by
        have hnewest := hbegun.newest
        omega
      exact hrunning hunmixed
    exact (hsound.running m).modifyObject_ne hm live patch.apply
  · exact hw.1.kept E t ids (.of_eq rfl)
  have hbegun := hw.2 hunmixed
  exact ⟨hbegun.work, hbegun.newest, hrunning hunmixed, hbegun.target, hbegun.waiting⟩

lemma kept_install (hinv : Unmixed E w.log → Sound E w)
    (hw : keptSpot E t ids (.begun p a live previous) w) :
    KeptEvent E t ids p a live previous w (w.install p.target.id live) := by
  refine ⟨promise_install t w _ live, fun hunmixed => ?_, hw.1.kept E t ids (.of_eq rfl),
    fun hunmixed => ?_⟩
  · have hsound := hinv hunmixed
    have hnewest := (hw.2 hunmixed).newest
    exact ⟨hsound.toBase.install (by rw [← hnewest]; exact Nat.lt_succ_self live),
      hsound.running, EntryKept.install (fun m _ => hsound.entries m) hnewest⟩
  have hbegun := hw.2 hunmixed
  exact ⟨hbegun.work, hbegun.newest, hbegun.running, hbegun.target, hbegun.waiting⟩

lemma targetOf_accepted {nodeId u : String}
    (htarget : E.rejectTarget nodeId targetNodeId = some upstreamId)
    (hu : targetOf E nodeId (some upstreamId) = some u) : u = upstreamId := by
  unfold targetOf retryTarget at hu
  rw [map_some] at hu
  obtain ⟨hmap, hne⟩ := filter_eq_some_iff.1 hu
  obtain rfl := some.inj hmap
  unfold rollbackTarget at hne ⊢
  split
  · rename_i hempty
    subst hempty
    unfold Env.rejectTarget at htarget
    split at htarget
    · rename_i hcase
      exact absurd (some.inj htarget) hcase
    rw [htarget, if_pos rfl] at hne
    simp at hne
  rfl

lemma kept_accepted (hx : w.attempts[a]? = some x) (hinv : Unmixed E w.log → Sound E w)
    (hw : keptSpot E t ids (.begun p a live previous) w) {reason : String}
    {outer upstream maxReject : Nat} (houter : x.outer = some outer)
    (htarget : E.rejectTarget x.node targetNodeId = some upstreamId)
    (hcurrent : w.current? upstreamId = some upstream) : KeptEvent E t ids p a live previous w
      (acceptReject w a x outer upstream upstreamId reason maxReject) := by
  obtain ⟨hattempt, hspot⟩ := hw
  have hattempt' := hattempt
  obtain ⟨_, hy, howner, hnode, hlive, hplace, -⟩ := hattempt
  obtain rfl := some.inj (hx.symm.trans hy)
  let rejecting : NodeExecutionState → NodeExecutionState :=
    rejectedState w x.node upstreamId reason maxReject
  let mark : Attempt → Attempt := fun x => { x with rejected := some upstreamId }
  let w₁ := w.modifyObject upstreamId upstream rejecting
  let w₂ := w₁.install upstreamId upstream
  let w₃ := w₂.modifyAttempt a mark
  have hworld : acceptReject w a x outer upstream upstreamId reason maxReject
      = (w₃.install x.node outer).record (.rejected x.owner x.node upstreamId) := rfl
  have halike : Alike w₁ w₂ := alike_install hcurrent
  have hmarked : w₃.attempts[a]? = some (mark x) := by
    simp only [w₃, w₂, w₁, World.modifyAttempt, World.install, World.modifyObject,
      getElem?_modify, hx]
    simp
  have hcount : ∀ (m : String) (k : Nat),
      (w₁.objects m k).attemptCount = (w.objects m k).attemptCount :=
    count_modifyObject w upstreamId upstream (fun _ => rfl)
  have hinput : ∀ (m : String) (k : Nat),
      (w₁.objects m k).inputSnapshot = (w.objects m k).inputSnapshot := by
    intro m k
    simp only [w₁, objects_modifyObject]
    split
    · rename_i hcase
      rw [hcase.1, hcase.2]
      rfl
    rfl
  have hpromise : Promise E t w (acceptReject w a x outer upstream upstreamId reason maxReject) := by
    have h₁ : Promise E t w w₁ :=
      promise_modifyObject w upstream (fun _ => rfl) (fun _ => .inl (fun _ => rfl))
    have h₃ : Promise E t w₂ w₃ := promise_modifyAttempt (w := w₂) hx howner mark
    have h₄ : Promise E t w₃ (w₃.install x.node outer) := promise_install t w₃ x.node outer
    rw [hworld]
    refine (((h₁.trans (halike.promise t)).trans h₃).trans h₄).trans
      (promise_record _ ?_ (fun _ _ _ _ _ => rfl))
    intro t' hne
    have howner' : x.owner ≠ t' := by rw [howner]; exact hne.symm
    simp [workOf, howner']
  have hwork : Unmixed E w.log → workOf E t (acceptReject w a x outer upstream upstreamId
      reason maxReject).log = .visiting x.node (targetOf E x.node (some upstreamId)) := by
    intro hunmixed
    have hold := (hspot hunmixed).work
    have hstep : workOf E t (acceptReject w a x outer upstream upstreamId reason maxReject).log
        = (workOf E t w.log).rejecting E upstreamId := by
      change workOf E t (.rejected x.owner x.node upstreamId :: w.log) = _
      simp [workOf, howner]
    rw [hstep, hold]
    cases p with
    | own => rw [hnode]; rfl
    | upstream => cases hplace.symm.trans houter
  refine ⟨hpromise, fun hunmixed => ?_, ?_, fun hunmixed => ?_⟩
  · have hrest : Unmixed E w.log := hunmixed.rest
    have h₁ : Sound E w₁ :=
      (hinv hrest).modifyObject upstreamId upstream (fun _ => rfl) (fun s hs => by cases hs)
    have h₃ : Sound E w₃ := (h₁.alike halike).modifyAttempt a (fun _ => rfl) (fun _ _ => rfl)
    obtain ⟨hbound, -, -⟩ := (hinv hrest).outer x (mem_of_getElem? hx) outer houter
    have hnewest := (hspot hrest).newest
    rw [hworld]
    refine ⟨(h₃.toBase.install hbound).record (fun t' m hm => ?_),
      fun m => (h₃.running m).record rfl, fun m => ?_⟩
    · by_cases ht : t' = t
      · subst ht
        have hvisit := hwork hrest
        change workOf E t' (.rejected x.owner x.node upstreamId :: w.log) = _ at hvisit
        change m ∈ (workOf E t' (.rejected x.owner x.node upstreamId :: w.log)).nodes at hm
        rw [hvisit] at hm
        obtain rfl := mem_singleton.1 hm
        exact Nat.zero_lt_of_lt hbound
      have howner' : x.owner ≠ t' := by rw [howner]; exact Ne.symm ht
      simp only [workOf, if_neg howner'] at hm
      exact h₃.worked t' m hm
    by_cases hm : m = x.node
    · subst hm
      intro k hk
      have hk' : (w₃.install x.node outer).current? x.node = some k := hk
      rw [current?_install_self] at hk'
      refine .inr ⟨mark x, mem_of_getElem? hmarked, rfl, rfl, houter.trans hk', ?_⟩
      change x.live + 1 = w.allocated x.node
      rw [hlive, hnode]
      exact hnewest
    exact (h₃.entries m).install_ne hm outer
  · exact hattempt'.kept E t ids (.modifyAttempt w₂ a (fun _ => rfl))
  have hrest : Unmixed E w.log := hunmixed.rest
  have hbegun := hspot hrest
  have hget : (acceptReject w a x outer upstream upstreamId reason maxReject).attempts[a]?
      = some (mark x) := hmarked
  constructor
  case work =>
    rw [hwork hrest, hget]
    cases p with
    | own => rw [hnode]; rfl
    | upstream => cases hplace.symm.trans houter
  case newest => exact hbegun.newest
  case running =>
    change 1 ≤ (w₁.objects p.target.id live).attemptCount ∧ ∃ input,
      runningAttempt p.target.id w.log = some ((w₁.objects p.target.id live).attemptCount, input) ∧
        SameInput (w₁.objects p.target.id live).inputSnapshot input
    rw [hcount, hinput]
    exact hbegun.running
  case target =>
    intro u hu
    rw [hget, ← hnode] at hu
    obtain rfl := targetOf_accepted htarget hu
    exact Nat.zero_lt_of_lt ((hinv hrest).entry u upstream hcurrent)
  case waiting => exact hbegun.waiting

lemma kept_events (p : Place) (a live : Nat) (previous : NodeExecutionState) :
    (keptLogic E).EventsKeep t (.plugin a) (keptSpot E t ids (.begun p a live previous)) := by
  refine eventsKeep_plugin (fun w hw hinv => ?_)
  obtain ⟨x, hx, _, hnode, hlive, -⟩ := hw.1
  refine ⟨x, hx, fun _ _ hstep _ => ?_⟩
  cases hstep with
  | clock => exact kept_alike hinv hw (IdleStep.clock w _).alike
  | sessions => exact kept_alike hinv hw (IdleStep.sessions w _).alike
  | disk => exact kept_alike hinv hw (IdleStep.disk w _).alike
  | land => exact kept_alike hinv hw (IdleStep.land w).alike
  | refused => exact kept_alike hinv hw ⟨rfl, rfl, fun _ => rfl, rfl, rfl, rfl⟩
  | saved =>
    exact (kept_alike hinv hw (IdleStep.release w).alike).trans (fun hinv' hw' =>
      kept_modifyAttempt hinv' hw' (fun _ => rfl) (fun _ => rfl))
  | saveStart =>
    have hsaved : KeptEvent E t ids p a live previous w w.takeSnapshot := by
      refine ⟨.of_same rfl rfl rfl rfl, fun hunmixed => (hinv hunmixed).takeSnapshot, hw.1, ?_⟩
      intro hunmixed
      have hbegun := hw.2 hunmixed
      exact ⟨hbegun.work, hbegun.newest, hbegun.running, hbegun.target, hbegun.waiting⟩
    exact hsaved.trans (fun hinv' hw' =>
      kept_modifyAttempt hinv' hw' (fun _ => rfl) (fun _ => rfl))
  | patch _ patch => exact kept_patch hx hinv hw patch
  | checkpoint =>
    rw [hnode, hlive]
    exact (kept_install hinv hw).trans (fun hinv' hw' =>
      kept_modifyAttempt hinv' hw' (fun _ => rfl) (fun _ => rfl))
  | accepted _ reason targetNodeId outer upstream upstreamId maxReject houter hopen htarget hcurrent =>
    exact kept_accepted hx hinv hw houter htarget hcurrent

end

/-! ## After an attempt -/

section
variable {w : World}

lemma attemptCount_updateRejectionRetryAudit (now : Timestamp) (calls : List String)
    (willRetry : Bool) (s : NodeExecutionState) :
    (updateRejectionRetryAudit now calls willRetry s).attemptCount = s.attemptCount := by
  unfold updateRejectionRetryAudit
  split
  · rfl
  dsimp only
  split <;> rfl

lemma inputSnapshot_updateRejectionRetryAudit (now : Timestamp) (calls : List String)
    (willRetry : Bool) (s : NodeExecutionState) :
    (updateRejectionRetryAudit now calls willRetry s).inputSnapshot = s.inputSnapshot := by
  unfold updateRejectionRetryAudit
  split
  · rfl
  dsimp only
  split <;> rfl

variable {outcome : PolicyOutcome} {n : String} {r : Nat}
  {f : NodeExecutionState → NodeExecutionState}

lemma failedNodePolicy_attemptCount {node : WorkflowNode} {now : Timestamp}
    {state next : NodeExecutionState}
    (h : failedNodePolicy E node now state = some (outcome, some next)) :
    next.attemptCount = state.attemptCount := by
  unfold failedNodePolicy at h
  split at h
  · obtain ⟨_, _, h⟩ := bind_eq_some_iff.1 h
    obtain ⟨_, hprep, h⟩ := map_eq_some_iff.1 h
    simp only [Prod.mk.injEq, some.injEq] at h
    obtain ⟨_, rfl⟩ := h
    unfold prepareRetry at hprep
    split at hprep
    · simp at hprep
    split at hprep
    · rw [some.inj hprep]
    split at hprep
    · simp at hprep
    rw [← some.inj hprep]
    rfl
  split at h
  · simp only [some.injEq, Prod.mk.injEq] at h
    obtain ⟨_, rfl⟩ := h
    rfl
  simp at h

lemma Sound.install (h : Sound E w) (hr : r + 1 = w.allocated n) : Sound E (w.install n r) :=
  ⟨h.toBase.install (by rw [← hr]; exact Nat.lt_succ_self r), h.running,
    EntryKept.install (fun m _ => h.entries m) hr⟩

lemma Sound.put (h : Sound E w) (hr : r + 1 = w.allocated n)
    (hcount : ∀ s, (f s).attemptCount = s.attemptCount) (hstatus : ∀ s, (f s).status ≠ .running) :
    Sound E ((w.modifyObject n r f).install n r) :=
  Sound.install (h.modifyObject n r hcount (fun s hs => absurd hs (hstatus s))) hr

lemma promise_put (w : World) (n : String) (r : Nat)
    (hcount : ∀ s, (f s).attemptCount = s.attemptCount)
    (hinput : ∀ s, (f s).inputSnapshot = s.inputSnapshot) :
    Promise E t w ((w.modifyObject n r f).install n r) :=
  (promise_modifyObject w r hcount (fun _ => .inl hinput)).trans (promise_install t _ n r)

lemma promise_installExecuted (node : WorkflowNode) (r : Nat) (calls : List String)
    (w : World) : Promise E t w (installExecuted node r calls w) :=
  (promise_install t w node.id r).trans (promise_modifyObject _ r
    (fun s => attemptCount_updateRejectionRetryAudit _ _ _ s)
    (fun _ => .inl (fun s => inputSnapshot_updateRejectionRetryAudit _ _ _ s)))

lemma Ended.installed {p : Place} {e : Executed} (h : Ended E t p e w) (calls : List String) :
    Installed E t p.target e.object (installExecuted p.target e.object calls w) where
  sound := h.sound.modifyObject p.target.id e.object
    (fun s => attemptCount_updateRejectionRetryAudit _ _ _ s)
    (fun s hs => ⟨by rwa [status_updateRejectionRetryAudit] at hs,
      inputSnapshot_updateRejectionRetryAudit _ _ _ s⟩)
  newest := h.newest
  alone := h.alone

lemma promise_installPolicy {node : WorkflowNode} {next : Option NodeExecutionState}
    (h : Unmixed E w.log → Installed E t node r w) : Promise E t w (installPolicy node.id r next w) := by
  cases next with
  | none => exact promise_install t w node.id r
  | some state => exact promise_installNew w state (fun hunmixed => (h hunmixed).alone)

lemma Installed.policy {node : WorkflowNode} {next : Option NodeExecutionState}
    (h : Installed E t node r w) (hfailed : (w.objects node.id r).status = .failed)
    (hcase : failedNodePolicy E node w.clock (w.objects node.id r) = some (outcome, next)) :
    Sound E (installPolicy node.id r next w) := by
  cases next with
  | none => exact h.sound.install h.newest
  | some =>
    refine h.sound.installNew (fun k _ => ?_) (failedNodePolicy_status hcase hfailed)
    rw [failedNodePolicy_attemptCount hcase]
    have hle : k ≤ r := by
      have hnewest := h.newest
      omega
    exact h.sound.grow node.id k r hle (by rw [← h.newest]; exact Nat.lt_succ_self r)

lemma log_installPolicy (n : String) (r : Nat) (next : Option NodeExecutionState) (w : World) :
    (installPolicy n r next w).log = w.log := by
  cases next <;> rfl

lemma allocated_installPolicy_ne {m : String} (hm : m ≠ n) (r : Nat)
    (next : Option NodeExecutionState) (w : World) :
    (installPolicy n r next w).allocated m = w.allocated m := by
  cases next with
  | none => rfl
  | some state => exact (allocated_installNew w n state m).trans (if_neg hm)

end

/-! ## The specification -/

section
variable (E t)
variable (ids : List String)

def keptReady (p : Place) (w : World) : Prop :=
  (∀ i node r, p = .own i node r → E.node? node.id = some node) ∧
    (Unmixed E w.log → Ready E t p w)

def keptExecuted (p : Place) (e : Executed) (w : World) : Prop :=
  (∀ i node r, p = .own i node r →
    NotSent E ids i node e ((w.objects node.id e.object).rejectionCount + 1) w) ∧
    (Unmixed E w.log → Ended E t p e w)

def KeptOwn (i : Nat) (node : WorkflowNode) (e : Executed) (w : World) : Prop :=
  Unmixed E w.log → Installed E t node e.object w ∧ (Place.own i node 0).After E t e w

def keptHeld (i : Nat) (node : WorkflowNode) (e : Executed) (w : World) : Prop :=
  NotSent E ids i node e ((w.objects node.id e.object).rejectionCount + 1) w ∧ KeptOwn E t i node e w

def keptCounted (i : Nat) (node : WorkflowNode) (e : Executed) (w : World) : Prop :=
  NotSent E ids i node e (w.objects node.id e.object).rejectionCount w ∧ KeptOwn E t i node e w

def keptRetried (i : Nat) (node : WorkflowNode) (r : Nat) (upstream : WorkflowNode) (r' : Nat)
    (w : World) : Prop :=
  Unmixed E w.log → Installed E t upstream r' w ∧
    (Place.upstream i node r upstream 0).After E t { object := r', rejected := none } w

variable {E t} {w : World} {calls : List String} {r i k : Nat} {e : Executed}
  {upstream : WorkflowNode}

lemma keptSpot_afterPolicy (skipped : Spot) (hskipped : keptSpot E t ids skipped w)
    (outcome : PolicyOutcome) : keptSpot E t ids (.afterPolicy skipped outcome) w := by
  cases outcome with
  | skipped => exact hskipped
  | _ => trivial

lemma kept_finishAttempt {p : Place} {a live : Nat} {previous : NodeExecutionState}
    {r : Except Exn Resp} {result : NodeResult} (hinv : Unmixed E w.log → Sound E w)
    (hw : keptSpot E t ids (.begun p a live previous) w) (hok : KeptAnswer E (.plugin a) r w)
    (hresult : resultOf r = some result) :
    Promise E t w (finishAttempt t p.target.id live previous result w) ∧
      keptExecuted E t ids p
        { object := w.allocated p.target.id, rejected := (w.attempts[a]?).bind (·.rejected) }
        (finishAttempt t p.target.id live previous result w) := by
  have hlog : (finishAttempt t p.target.id live previous result w).log
      = .ended t p.target.id result.status.normalize :: w.log :=
    (alike_finishAttempt (t := t) p.target.id live previous result w).log
  refine ⟨promise_finishAttempt (fun hu => (hw.2 hu).alone hu), ?_, fun hunmixed => ?_⟩
  · rintro i node r' rfl
    exact notSent_finishAttempt ids hw.1 (hok a rfl (by rw [hresult]; rfl)).1 hresult rfl
  rw [hlog] at hunmixed
  exact ended_finishAttempt hw.1 (hw.2 hunmixed.rest) (hinv hunmixed.rest) hunmixed.rest hok
    hresult

lemma kept_installOwn {node : WorkflowNode} (hw : keptExecuted E t ids (.own i node r) e w) :
    Promise E t w (installExecuted node e.object calls w) ∧
      keptHeld E t ids i node e (installExecuted node e.object calls w) := by
  refine ⟨promise_installExecuted node e.object calls w, (hw.1 i node r rfl).installed ids, ?_⟩
  intro hunmixed
  have hended := hw.2 hunmixed
  refine ⟨hended.installed calls, fun u hu => ?_⟩
  obtain ⟨hother, hwork, hentry⟩ := hended.after u hu
  refine ⟨hother, hwork, fun k hk => hentry k ?_⟩
  exact ((current?_install w node.id u e.object).trans (if_neg (Ne.symm hother))).symm.trans hk

lemma kept_count {node : WorkflowNode} (hw : keptHeld E t ids i node e w) :
    Promise E t w (countRejection node.id e.object w) ∧
      keptCounted E t ids i node e (countRejection node.id e.object w) := by
  refine ⟨promise_modifyObject w e.object (fun _ => rfl) (fun _ => .inl (fun _ => rfl)),
    hw.1.counted ids, fun hunmixed => ?_⟩
  obtain ⟨hinstalled, hafter⟩ := hw.2 hunmixed
  exact ⟨⟨hinstalled.sound.modifyObject node.id e.object (fun _ => rfl) (fun _ hs => ⟨hs, rfl⟩),
    hinstalled.newest, hinstalled.alone⟩, hafter⟩

lemma kept_prepare {node : WorkflowNode} (hw : KeptOwn E t i node e w)
    (htarget : retryTarget E node.id e = some upstream.id)
    (hcurrent : w.current? upstream.id = some r) (hknown : E.node? upstream.id = some upstream) :
    Promise E t w (prepareUpstreamRetry upstream.id r w) ∧
      (Unmixed E w.log → Sound E (prepareUpstreamRetry upstream.id r w)) ∧
      (Unmixed E w.log → Retrying E t node e.object upstream (w.allocated upstream.id)
        (prepareUpstreamRetry upstream.id r w)) := by
  have halone : Unmixed E w.log → Alone E t upstream.id w := by
    intro hunmixed
    obtain ⟨-, hwork, -⟩ := (hw hunmixed).2 upstream.id htarget
    exact alone_of_mem hunmixed (by rw [hwork]; simp [Work.nodes])
  refine ⟨promise_installNew w _ halone, fun hunmixed => ?_, fun hunmixed => ?_⟩
  · obtain ⟨hinstalled, hafter⟩ := hw hunmixed
    obtain ⟨-, -, hentry⟩ := hafter upstream.id htarget
    have hnewest := hentry r hcurrent
    refine hinstalled.sound.installNew (fun k _ => ?_)
      (by simp [preparedRetry])
    exact hinstalled.sound.grow upstream.id k r (by omega) (by omega)
  obtain ⟨hinstalled, hafter⟩ := hw hunmixed
  obtain ⟨hother, hwork, -⟩ := hafter upstream.id htarget
  have hallocated := allocated_installNew w upstream.id
    ({ w.objects upstream.id r with status := .failed }.preparedRetry .validatorRetry none)
  exact ⟨hwork, ((hallocated _).trans (if_pos rfl)).symm,
    ⟨hinstalled.newest.trans ((hallocated _).trans (if_neg (Ne.symm hother))).symm,
      Ne.symm hother⟩, hknown⟩

lemma ready_retry {node : WorkflowNode} (hinv : Sound E w)
    (h : Retrying E t node r upstream k w) : Ready E t (.upstream i node r upstream k) w where
  base := hinv.toBase
  others m _ := hinv.running m
  entries := hinv.entries
  work := h.work
  known := h.known
  object := .inr h.newest
  bound := by
    rw [Place.target, ← h.newest]
    exact Nat.lt_succ_self k
  grows j hj := by
    have hle : j ≤ k := by
      have hnewest := h.newest
      have hj' : j < w.allocated upstream.id := hj
      omega
    exact (hinv.grow upstream.id j k hle (by rw [← h.newest]; exact Nat.lt_succ_self k)).trans
      (Nat.le_succ _)
  waiting := h.waiting

lemma kept_installUpstream {node : WorkflowNode}
    (hw : keptExecuted E t ids (.upstream i node r upstream k) e w) :
    Promise E t w (installExecuted upstream e.object calls w) ∧
      Promise E t (installExecuted upstream e.object calls w)
        (awaitUpstream node.id r (installExecuted upstream e.object calls w)) ∧
      keptRetried E t i node r upstream e.object
        (awaitUpstream node.id r (installExecuted upstream e.object calls w)) := by
  refine ⟨promise_installExecuted upstream e.object calls w, ?_, fun hunmixed => ?_⟩
  · exact promise_put _ node.id r (fun _ => rfl) (fun _ => rfl)
  have hended := hw.2 hunmixed
  obtain ⟨hnewest, hother, halone, hheld⟩ := hended.after
  have hinstalled := hended.installed calls
  refine ⟨⟨?_, hinstalled.newest, hinstalled.alone⟩, hnewest, hother, halone, fun hfailed => ?_⟩
  · exact hinstalled.sound.put hnewest (fun _ => rfl) (fun _ => by simp)
  refine hheld ?_
  have hsame : ((awaitUpstream node.id r (installExecuted upstream e.object calls w)).objects
      upstream.id e.object) = (installExecuted upstream e.object calls w).objects upstream.id
        e.object := by
    unfold awaitUpstream
    rw [objects_install, objects_modifyObject_ne _ _ _ _ _ _ (.inl (Ne.symm hother))]
  have haudit : (installExecuted upstream e.object calls w).objects upstream.id e.object
      = updateRejectionRetryAudit w.clock calls
          (canAutoRetry upstream (w.objects upstream.id e.object))
          (w.objects upstream.id e.object) :=
    objects_modifyObject_self _ _ _ _
  rw [hsame, haudit, status_updateRejectionRetryAudit] at hfailed
  exact hfailed

/-- **A node sequence keeps the invariant.** -/
def keptSequence (E : Env) (t : Thread) (Γ : Ctx engineSig) (disabled ids : List String) :
    SequenceSpec (keptLogic E) t Γ disabled ids where
  spot := keptSpot E t ids
  raised _ _ := True
  ready := keptReady E t
  executed := keptExecuted E t ids
  held := keptHeld E t ids
  counted := keptCounted E t ids
  retried := keptRetried E t
  stands := stands_keptSpot ids
  raised_stands _ := stands_of_promise (fun _ _ _ _ _ _ => trivial)
  cancel _ _ _ _ _ := trivial
  fail _ _ _ _ _ _ _ := trivial
  failLate _ _ _ _ := trivial
  finish _ _ _ _ := trivial
  noNode _ _ _ _ _ _ := trivial
  skipDisabled _ n w _ _ _ hinv _ :=
    ⟨promise_upsert (fun hu => (hinv hu).toBase) n (fun _ => rfl) (fun _ => rfl),
      fun hunmixed => by
        have hlog : (skipDisabled n w).log = w.log := World.log_upsert _ _ _
        rw [hlog] at hunmixed
        exact (hinv hunmixed).upsert n (fun _ => rfl) (fun _ => by simp), trivial⟩
  terminal _ n w _ _ _ _ _ _ hinv _ := by
    unfold normalizeStatus
    cases hcur : w.current? n with
    | none => exact ⟨.refl t w, hinv, trivial⟩
    | some r =>
      refine ⟨promise_modifyObject w r (fun _ => rfl) (fun _ => .inl (fun _ => rfl)),
        fun hunmixed => ?_, trivial⟩
      refine Sound.modifyObject (hinv hunmixed) n r ?_ ?_
      · exact fun _ => rfl
      · exact fun s hs => ⟨NodeStatus.normalize_eq_running.1 hs, rfl⟩
  blocked _ _ _ _ _ _ _ _ _ := trivial
  waiting _ _ _ _ _ _ _ := trivial
  enter i node w _ hnode _ _ hinv _ := by
    refine ⟨promise_enterNode hinv node.id, ?_, fun hunmixed => ?_⟩
    · rintro _ _ _ ⟨⟩
      exact hnode
    · have hlog : (enterNode t node.id w).log = .entered t node.id :: w.log := by
        unfold enterNode
        rw [World.log_record, World.log_upsert]
      rw [hlog] at hunmixed
      exact ready_enterNode (hinv hunmixed.rest) hnode
  retry i node r upstream k w hinv hw :=
    ⟨fun _ _ _ hp => (nomatch hp), fun hunmixed => ready_retry (hinv hunmixed) (hw hunmixed)⟩
  failUnknown p w hw hreg := by
    refine ⟨promise_failUnknown hw.2, ?_, fun hunmixed => ?_⟩
    · rintro i node r rfl hrejected
      have hobject : ((failUnknownType t node r w).objects node.id r).status = .failed := by
        unfold failUnknownType
        rw [World.objects_record, World.objects_modifyObject_self]
      exact nomatch hobject.symm.trans hrejected
    · exact ended_failUnknown (hw.2 hunmixed.rest) hunmixed.rest hreg
  begin p call w hw horder houter hindex hreg := by
    refine ⟨promise_begin hw.2, fun hunmixed => ?_, ?_, fun hunmixed => ?_⟩
    · exact (ready_begin (hw.2 hunmixed.rest) houter hreg).1
    · refine ⟨newAttempt E t p.target p.object call w, ?_, rfl, rfl, rfl, houter, horder,
        fun i node r hp => ⟨hindex i node r hp, hw.1 i node r hp⟩⟩
      exact List.getElem?_concat_length
    · exact (ready_begin (hw.2 hunmixed.rest) houter hreg).2
  events := kept_events
  finishAttempt _ _ _ _ _ _ _ hinv hw _ hok hresult := kept_finishAttempt ids hinv hw hok hresult
  installOwn _ _ _ _ _ _ hw := kept_installOwn ids hw
  pass _ _ _ _ hw _ _ _ := ⟨fun hunmixed => (hw.2 hunmixed).1.sound, trivial⟩
  policy i node e w outcome next hw _ hfail hcase := by
    refine ⟨promise_installPolicy (fun hunmixed => (hw.2 hunmixed).1), fun hunmixed => ?_,
      keptSpot_afterPolicy ids (.head (i + 1)) trivial outcome⟩
    rw [log_installPolicy] at hunmixed
    exact (hw.2 hunmixed).1.policy hfail hcase
  policyRaises _ _ _ _ hw _ := ⟨fun hunmixed => (hw.2 hunmixed).1.sound, trivial⟩
  count _ _ _ _ hw _ := kept_count ids hw
  endRejected i node e w hw _ _ := by
    have hown : KeptOwn E t i node e w := hw.elim And.right And.right
    refine ⟨promise_put w node.id e.object (fun _ => rfl) (fun _ => rfl), fun hunmixed => ?_,
      trivial⟩
    have hinstalled := (hown hunmixed).1
    exact hinstalled.sound.put hinstalled.newest (fun _ => rfl) (fun _ => by simp)
  send _ _ _ _ _ _ hw htarget hrej htype hpos hcount hlive :=
    nomatch hlive.symm.trans (hw.1 hrej htarget htype hpos hcount).2
  rollBack _ _ _ _ _ _ _ hw := hw.elim
  lost _ _ _ _ _ hw _ _ := ⟨fun hunmixed => (hw.2 hunmixed).1.sound, trivial⟩
  prepare _ _ _ _ _ _ hw htarget hcurrent hknown := kept_prepare hw.2 htarget hcurrent hknown
  installUpstream _ _ _ _ _ _ _ _ hw := kept_installUpstream ids hw
  passUpstream _ _ _ _ _ _ hw _ := ⟨fun hunmixed => (hw hunmixed).1.sound, trivial⟩
  policyUpstream i node r upstream r' w outcome next hw hfail hcase := by
    refine ⟨promise_installPolicy (fun hunmixed => (hw hunmixed).1), fun hunmixed => ?_,
      keptSpot_afterPolicy ids (.skipping i node r) (fun hunmixed => ?_) outcome⟩
    · rw [log_installPolicy] at hunmixed
      exact (hw hunmixed).1.policy hfail hcase
    · rw [log_installPolicy] at hunmixed
      obtain ⟨-, hnewest, hother, -, hheld⟩ := hw hunmixed
      refine ⟨?_, ?_⟩
      · rw [log_installPolicy]
        exact hheld hfail
      · rw [allocated_installPolicy_ne hother]
        exact hnewest
  policyUpstreamRaises _ _ _ _ _ _ hw _ := ⟨fun hunmixed => (hw hunmixed).1.sound, trivial⟩
  skipOwn _ node r w hinv hw :=
    ⟨promise_put w node.id r (fun _ => rfl) (fun _ => rfl), fun hunmixed =>
      (hinv hunmixed).put (hw hunmixed).newest (fun _ => rfl) (fun _ => by simp), trivial⟩

end
end
end DeterminFlow.Engine
