/-
  Engine.NodeWork
  **WHO WORKS ON WHICH NODE.**

  A task works on a node from the moment it turns to it to the end of its
  attempt.  When the attempt has rejected an upstream node, the task goes
  on with both: the upstream node until its new attempt has ended, its own
  node until it may turn to it again.  All this is read off the history
  (`workOf`), and so is the attempt that runs on a node (`runningAttempt`).

  A history is unmixed (`Unmixed`) when at no time two tasks worked on one
  node.  What a task promises the others (`Promise`) is about such
  histories: it leaves the nodes alone that another task works on.
-/
import DeterminFlow.Engine.NothingLeftRunning

namespace DeterminFlow.Engine

open Library Coop Workflow DeterminFlow.Runtime

/-! ## Reading the history -/

inductive Work where
  | idle
  /-- A node, and the upstream node its attempt has rejected. -/
  | visiting (node : String) (target : Option String)
  /-- A node that has rejected, and the upstream node that is executed again. -/
  | retrying (node upstream : String)
  /-- A node that has rejected, the new attempt of the upstream node having failed. -/
  | held (node : String)
  deriving DecidableEq

def Work.nodes : Work → List String
  | .idle => []
  | .visiting node _ => [node]
  | .retrying node upstream => [node, upstream]
  | .held node => [node]

def Work.ended (status : NodeStatus) : Work → Work
  | .visiting node (some upstream) => .retrying node upstream
  | .retrying node _ => if status = .failed then .held node else .idle
  | _ => .idle

def targetOf (E : Env) (nodeId : String) (rejected : Option String) : Option String :=
  retryTarget E nodeId { object := 0, rejected := rejected }

def Work.rejecting (E : Env) (upstream : String) : Work → Work
  | .visiting node _ => .visiting node (targetOf E node (some upstream))
  | work => work

/-- The work of task `t`, newest entry first. -/
def workOf (E : Env) (t : Thread) : List LogEntry → Work
  | [] => .idle
  | .entered t' n :: rest => if t' = t then .visiting n none else workOf E t rest
  | .rejected t' _ u :: rest =>
    if t' = t then (workOf E t rest).rejecting E u else workOf E t rest
  | .ended t' _ status :: rest =>
    if t' = t then (workOf E t rest).ended status else workOf E t rest
  | _ :: rest => workOf E t rest

def runningAttempt (n : String) : List LogEntry → Option (Nat × Pool)
  | [] => none
  | .began _ m count input :: rest => if m = n then some (count, input) else runningAttempt n rest
  | .ended _ m _ :: rest => if m = n then none else runningAttempt n rest
  | _ :: rest => runningAttempt n rest

/-! ## Unmixed histories -/

section
variable (E : Env)

def Apart (log : List LogEntry) : Prop :=
  ∀ t t', t ≠ t' → ∀ n ∈ (workOf E t log).nodes, n ∉ (workOf E t' log).nodes

/-- **At no time have two tasks worked on one node**, and no loop has reset a
node a branch was working on. -/
def Unmixed : List LogEntry → Prop
  | [] => True
  | .reset n :: rest => Unmixed rest ∧ ∀ i, n ∉ (workOf E (.kid i) rest).nodes
  | entry :: rest => Unmixed rest ∧ Apart E (entry :: rest)

variable {E} {log : List LogEntry}

lemma Unmixed.rest {entry : LogEntry} (h : Unmixed E (entry :: log)) : Unmixed E log := by
  cases entry <;> exact h.1

lemma Unmixed.of_suffix {log' : List LogEntry} (hsuffix : log <:+ log') (h : Unmixed E log') :
    Unmixed E log := by
  obtain ⟨fresh, rfl⟩ := hsuffix
  induction fresh with
  | nil => exact h
  | cons entry fresh ih => exact ih h.rest

lemma Unmixed.apart (h : Unmixed E log) : Apart E log := by
  induction log with
  | nil =>
    intro _ _ _ _ hn
    simp [workOf, Work.nodes] at hn
  | cons entry log ih =>
    cases entry with
    | reset => exact ih h.1
    | _ => exact h.2

/-- Nobody but `t` works on a node. -/
def Alone (E : Env) (t : Thread) (n : String) (w : World) : Prop :=
  ∀ t', t' ≠ t → n ∉ (workOf E t' w.log).nodes

lemma alone_of_mem {t : Thread} {n : String} {w : World} (h : Unmixed E w.log)
    (hn : n ∈ (workOf E t w.log).nodes) : Alone E t n w :=
  fun t' hne => h.apart t t' hne.symm n hn

end

/-! ## Promises -/

section
variable (E : Env)

/-- What a task relies on about a node it works on. -/
structure Untouched (n : String) (w w' : World) : Prop where
  allocated : w'.allocated n = w.allocated n
  running : runningAttempt n w'.log = runningAttempt n w.log
  inputs : ∀ r, (w'.objects n r).inputSnapshot = (w.objects n r).inputSnapshot

/-- **What a task promises the others.** -/
structure Promise (t : Thread) (w w' : World) : Prop where
  log : w.log <:+ w'.log
  works : ∀ t', t' ≠ t → workOf E t' w'.log = workOf E t' w.log
  allocated : ∀ n, w.allocated n ≤ w'.allocated n
  counts : ∀ n r, r < w.allocated n →
    (w'.objects n r).attemptCount = (w.objects n r).attemptCount
  attempts : ∀ (a : Nat) (x : Attempt), w.attempts[a]? = some x → x.owner ≠ t →
    w'.attempts[a]? = some x
  untouched : Unmixed E w'.log → ∀ t', t' ≠ t → ∀ n ∈ (workOf E t' w.log).nodes,
    Untouched n w w'

variable {E} {t : Thread} {w w' : World} {n : String}

lemma Promise.trans {w'' : World} (h : Promise E t w w') (h' : Promise E t w' w'') :
    Promise E t w w'' where
  log := h.log.trans h'.log
  works t' hne := (h'.works t' hne).trans (h.works t' hne)
  allocated n := (h.allocated n).trans (h'.allocated n)
  counts n r hr := (h'.counts n r (hr.trans_le (h.allocated n))).trans (h.counts n r hr)
  attempts a x hx howner := h'.attempts a x (h.attempts a x hx howner) howner
  untouched hunmixed t' hne n hn := by
    have hfirst := h.untouched (hunmixed.of_suffix h'.log) t' hne n hn
    have hsecond := h'.untouched hunmixed t' hne n (by rw [h.works t' hne]; exact hn)
    exact ⟨hsecond.allocated.trans hfirst.allocated, hsecond.running.trans hfirst.running,
      fun r => (hsecond.inputs r).trans (hfirst.inputs r)⟩

lemma Promise.alone (h : Promise E t w w') (hn : Alone E t n w) : Alone E t n w' := by
  intro t' hne
  rw [h.works t' hne]
  exact hn t' hne

lemma Promise.of_log (hlog : w'.log = w.log) (hallocated : ∀ n, w.allocated n ≤ w'.allocated n)
    (hcounts : ∀ n r, r < w.allocated n →
      (w'.objects n r).attemptCount = (w.objects n r).attemptCount)
    (hattempts : ∀ (a : Nat) (x : Attempt), w.attempts[a]? = some x → x.owner ≠ t →
      w'.attempts[a]? = some x)
    (huntouched : Unmixed E w.log → ∀ t', t' ≠ t → ∀ n ∈ (workOf E t' w.log).nodes,
      w'.allocated n = w.allocated n ∧
        ∀ r, (w'.objects n r).inputSnapshot = (w.objects n r).inputSnapshot) :
    Promise E t w w' where
  log := by rw [hlog]
  works _ _ := by rw [hlog]
  allocated := hallocated
  counts := hcounts
  attempts := hattempts
  untouched hunmixed t' hne n hn := by
    rw [hlog] at hunmixed
    obtain ⟨h₁, h₂⟩ := huntouched hunmixed t' hne n hn
    exact ⟨h₁, by rw [hlog], h₂⟩

lemma Promise.of_same (hlog : w'.log = w.log) (hallocated : w'.allocated = w.allocated)
    (hobjects : w'.objects = w.objects) (hattempts : w'.attempts = w.attempts) :
    Promise E t w w' := by
  refine .of_log hlog (fun n => by rw [hallocated]) (fun n r _ => by rw [hobjects]) ?_ ?_
  · intro _ _ hx _
    rw [hattempts]
    exact hx
  intro _ _ _ n _
  exact ⟨by rw [hallocated], fun r => by rw [hobjects]⟩

lemma Promise.refl (t : Thread) (w : World) : Promise E t w w := .of_same rfl rfl rfl rfl

lemma promise_install (t : Thread) (w : World) (n : String) (r : Nat) :
    Promise E t w (w.install n r) := .of_same rfl rfl rfl rfl

lemma promise_modifyObject (w : World) (r : Nat) {f : NodeExecutionState → NodeExecutionState}
    (hcount : ∀ s, (f s).attemptCount = s.attemptCount)
    (hinput : Unmixed E w.log → (∀ s, (f s).inputSnapshot = s.inputSnapshot) ∨ Alone E t n w) :
    Promise E t w (w.modifyObject n r f) := by
  refine .of_log rfl (fun _ => le_rfl) ?_ (fun _ _ hx _ => hx) ?_
  · intro m k _
    rw [World.objects_modifyObject]
    split
    · rename_i h
      obtain ⟨rfl, rfl⟩ := h
      exact hcount _
    rfl
  intro hunmixed t' hne m hm
  refine ⟨rfl, fun k => ?_⟩
  rw [World.objects_modifyObject]
  split
  · rename_i h
    obtain ⟨rfl, rfl⟩ := h
    rcases hinput hunmixed with hinput | halone
    · exact hinput _
    exact absurd hm (halone t' hne)
  rfl

lemma promise_allocate (w : World) (s : NodeExecutionState)
    (halone : Unmixed E w.log → Alone E t n w) : Promise E t w (w.allocate n s) := by
  have hallocated : ∀ m, (w.allocate n s).allocated m
      = if m = n then w.allocated n + 1 else w.allocated m := by
    intro m
    unfold World.allocate
    by_cases hm : m = n
    · subst hm; simp
    simp [hm]
  refine .of_log rfl ?_ ?_ (fun _ _ hx _ => hx) ?_
  · intro m
    rw [hallocated]
    split
    · rename_i h
      subst h
      exact Nat.le_succ _
    exact le_rfl
  · intro m k hk
    rw [World.objects_allocate, if_neg]
    rintro ⟨rfl, rfl⟩
    exact lt_irrefl _ hk
  intro hunmixed t' hne m hm
  have hmn : m ≠ n := by
    rintro rfl
    exact halone hunmixed t' hne hm
  exact ⟨by rw [hallocated, if_neg hmn],
    fun k => by rw [World.objects_allocate, if_neg (fun h => hmn h.1)]⟩

lemma promise_installNew (w : World) (s : NodeExecutionState)
    (halone : Unmixed E w.log → Alone E t n w) : Promise E t w (w.installNew n s) :=
  (promise_allocate w s halone).trans (promise_install t _ n _)

lemma promise_record (w : World) {entry : LogEntry}
    (hworks : ∀ t', t' ≠ t → workOf E t' (entry :: w.log) = workOf E t' w.log)
    (hrunning : Unmixed E (entry :: w.log) → ∀ t', t' ≠ t → ∀ n ∈ (workOf E t' w.log).nodes,
      runningAttempt n (entry :: w.log) = runningAttempt n w.log) :
    Promise E t w (w.record entry) where
  log := List.suffix_cons _ _
  works := hworks
  allocated _ := le_rfl
  counts _ _ _ := rfl
  attempts _ _ hx _ := hx
  untouched hunmixed t' hne n hn := ⟨rfl, hrunning hunmixed t' hne n hn, fun _ => rfl⟩

end
end DeterminFlow.Engine
