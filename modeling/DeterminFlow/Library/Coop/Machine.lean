/-
  Library.Coop.Machine
  **RUNS OF COOPERATIVE TASKS.**

  One main task and the child tasks it has created share a state.  A task
  that runs is not interrupted before its next suspension point; at a
  suspension point any task may go on: one whose operation is answered, a
  child not started yet, the main task when a child it waits for has
  finished, or the main task when its wait is cancelled.  Cancelling the
  main task leaves its children alone.

  `step` is executable, so concrete runs can be replayed; `Reachable` is
  what the theorems are about.
-/
import DeterminFlow.Library.Coop.Prog

namespace DeterminFlow.Library.Coop

open List Option

/-- Names of tasks. -/
inductive Thread where
  | main
  | kid (i : Nat)
  deriving DecidableEq

/-- The environment of a family of programs. -/
structure Machine (S : Sig) where
  /-- Which answers a pending operation may get. -/
  accepts : S.Op → Except S.Exn S.Resp → S.State → Bool
  /-- What a pending operation may do meanwhile. -/
  fire : S.Op → S.Ev → S.State → Option S.State
  /-- What the answer to an operation leaves in the state. -/
  settle : Thread → S.Op → Except S.Exn S.Resp → S.State → S.State
  /-- What the cancelled wait of the main task for a child leaves in the state. -/
  settleCancel : S.State → S.State
  /-- The program of child task number `i`. -/
  body : Nat → S.Arg → Prog S S.Out
  /-- The exception a cancelled wait raises. -/
  cancelled : S.Exn

/-- A child task. -/
structure Kid (S : Sig) where
  arg : S.Arg
  prog : Prog S S.Out
  started : Bool
  /-- Its result has been handed to the main task. -/
  delivered : Bool

structure Config (S : Sig) (α : Type) where
  state : S.State
  main : Prog S α
  kids : List (Kid S)
  /-- The task that is between two suspension points. -/
  running : Option Thread

/-- What can happen next. -/
inductive Move (S : Sig) where
  /-- The running task does one internal step, or suspends. -/
  | tick
  /-- The pending operation of a task is answered. -/
  | answer (t : Thread) (r : Except S.Exn S.Resp)
  /-- The pending operation of a task does something. -/
  | event (t : Thread) (e : S.Ev)
  /-- A child task starts. -/
  | start (i : Nat)
  /-- The main task gets the result of a finished child. -/
  | deliver (i : Nat)
  /-- The wait of the main task for a child is cancelled. -/
  | cancelJoin

namespace Machine

variable {S : Sig} {α : Type} (M : Machine S)

def newKids (first : Nat) (args : List S.Arg) : List (Kid S) :=
  args.mapIdx (fun j a =>
    { arg := a, prog := M.body (first + j) a, started := false, delivered := false })

def pending? {β : Type} : Prog S β → Option (S.Op × (Except S.Exn S.Resp → Prog S β))
  | .call op next => some (op, next)
  | _ => none

/-- The operation task `t` waits for. -/
def pendingOp? (c : Config S α) : Thread → Option S.Op
  | .main => (pending? c.main).map (·.1)
  | .kid i => (c.kids[i]?).bind (fun kid => (pending? kid.prog).map (·.1))

def tick (c : Config S α) : Option (Config S α) :=
  match c.running with
  | none => none
  | some .main =>
    match c.main.advance c.kids.length c.state with
    | some (s, p, args) =>
      some { c with state := s, main := p, kids := c.kids ++ M.newKids c.kids.length args }
    | none => some { c with running := none }
  | some (.kid i) =>
    (c.kids[i]?).bind fun kid =>
      match kid.prog.advance c.kids.length c.state with
      | some (s, p, []) =>
        some { c with state := s, kids := c.kids.set i { kid with prog := p } }
      | some (_, _, _ :: _) => none
      | none => some { c with running := none }

/-- The pending operation of `t` is answered and `t` runs. -/
def answer (c : Config S α) (t : Thread) (r : Except S.Exn S.Resp) : Option (Config S α) :=
  match t with
  | .main =>
    (pending? c.main).bind fun (op, next) =>
      if M.accepts op r c.state then
        some { c with state := M.settle .main op r c.state, main := next r,
                      running := some .main }
      else none
  | .kid i =>
    (c.kids[i]?).bind fun kid =>
      (pending? kid.prog).bind fun (op, next) =>
        if kid.started && M.accepts op r c.state then
          some { c with state := M.settle (.kid i) op r c.state,
                        kids := c.kids.set i { kid with prog := next r },
                        running := some (.kid i) }
        else none

/-- The pending operation of `t` does something. -/
def event (c : Config S α) (t : Thread) (e : S.Ev) : Option (Config S α) :=
  match t with
  | .main =>
    (pending? c.main).bind fun (op, _) =>
      (M.fire op e c.state).map fun s => { c with state := s }
  | .kid i =>
    (c.kids[i]?).bind fun kid =>
      (pending? kid.prog).bind fun (op, _) =>
        if kid.started then (M.fire op e c.state).map fun s => { c with state := s }
        else none

/-- Child `i` takes its first step. -/
def start (c : Config S α) (i : Nat) : Option (Config S α) :=
  (c.kids[i]?).bind fun kid =>
    if kid.started then none
    else some { c with kids := c.kids.set i { kid with started := true },
                       running := some (.kid i) }

/-- The main task, waiting for one of the children `first …`, gets a result. -/
def deliver (c : Config S α) (i : Nat) : Option (Config S α) :=
  match c.main with
  | .join first count next =>
    (c.kids[i]?).bind fun kid =>
      kid.prog.result?.bind fun out =>
        if kid.started && !kid.delivered && decide (first ≤ i ∧ i < first + count) then
          some { c with main := next out, kids := c.kids.set i { kid with delivered := true },
                        running := some .main }
        else none
  | _ => none

def cancelJoin (c : Config S α) : Option (Config S α) :=
  match c.main with
  | .join _ _ next =>
    some { c with state := M.settleCancel c.state, main := next (.error M.cancelled),
                  running := some .main }
  | _ => none

/-- **One step of the machine.**  Only `tick` is possible while a task runs. -/
def step (c : Config S α) : Move S → Option (Config S α)
  | .tick => M.tick c
  | .answer t r => if c.running = none then M.answer c t r else none
  | .event t e => if c.running = none then M.event c t e else none
  | .start i => if c.running = none then start c i else none
  | .deliver i => if c.running = none then deliver c i else none
  | .cancelJoin => if c.running = none then M.cancelJoin c else none

def drive : Nat → Config S α → Option (Config S α)
  | 0, c => if c.running = none then some c else none
  | fuel + 1, c => if c.running = none then some c else (M.tick c).bind (drive fuel)

def replay (fuel : Nat) (c : Config S α) : List (Move S) → Option (Config S α)
  | [] => M.drive fuel c
  | m :: rest => (M.drive fuel c).bind fun d => (M.step d m).bind fun e => replay fuel e rest

def initial (state : S.State) (main : Prog S α) : Config S α :=
  { state := state, main := main, kids := [], running := some .main }

/-- Configurations reached by steps that `permits` allows. -/
inductive Reachable (permits : Config S α → Move S → Prop) (c : Config S α) : Config S α → Prop
  | refl : Reachable permits c c
  | step {d e : Config S α} {m : Move S} (h : Reachable permits c d) (hm : permits d m)
      (hstep : M.step d m = some e) : Reachable permits c e

lemma Reachable.trans {permits : Config S α → Move S → Prop} {c d e : Config S α}
    (hcd : M.Reachable permits c d) (hde : M.Reachable permits d e) : M.Reachable permits c e := by
  induction hde with
  | refl => exact hcd
  | step _ hm hstep ih => exact .step ih hm hstep

lemma Reachable.mono {permits permits' : Config S α → Move S → Prop} {c d : Config S α}
    (hsub : ∀ c m, permits c m → permits' c m) (h : M.Reachable permits c d) :
    M.Reachable permits' c d := by
  induction h with
  | refl => exact .refl
  | step _ hm hstep ih => exact .step ih (hsub _ _ hm) hstep

section
variable {permits : Config S α → Move S → Prop} (htick : ∀ c, permits c .tick)
include htick

lemma reachable_of_drive {fuel : Nat} {c d : Config S α} (h : M.drive fuel c = some d) :
    M.Reachable permits c d := by
  induction fuel generalizing c with
  | zero =>
    rw [drive] at h
    split at h
    · obtain rfl := some.inj h
      exact .refl
    cases h
  | succ fuel ih =>
    rw [drive] at h
    split at h
    · obtain rfl := some.inj h
      exact .refl
    obtain ⟨_, hstep, hrest⟩ := bind_eq_some_iff.1 h
    exact Reachable.trans M (.step .refl (htick c) (m := .tick) hstep) (ih hrest)

lemma reachable_of_replay {fuel : Nat} {c d : Config S α} {moves : List (Move S)}
    (hmoves : ∀ m ∈ moves, ∀ c, permits c m) (h : M.replay fuel c moves = some d) :
    M.Reachable permits c d := by
  induction moves generalizing c with
  | nil => exact M.reachable_of_drive htick h
  | cons m rest ih =>
    rw [replay] at h
    obtain ⟨e, hdrive, h⟩ := bind_eq_some_iff.1 h
    obtain ⟨e', hstep, hrest⟩ := bind_eq_some_iff.1 h
    have hfirst : M.Reachable permits c e' :=
      Reachable.trans M (M.reachable_of_drive htick hdrive)
        (.step .refl (hmoves m (mem_cons_self ..) e) hstep)
    exact Reachable.trans M hfirst
      (ih (fun m' hm' => hmoves m' (mem_cons_of_mem _ hm')) hrest)

end

/-! A run that is over. -/

lemma pending?_of_result? {β : Type} {p : Prog S β} (h : p.result?.isSome) :
    pending? p = none := by
  cases p <;> simp_all [Prog.result?, pending?]

lemma step_eq_none {c : Config S α} (hrun : c.running = none) (hmain : c.main.result?.isSome)
    (hkids : ∀ (i : Nat) (kid : Kid S), c.kids[i]? = some kid →
      kid.started = true ∧ kid.prog.result?.isSome) (m : Move S) : M.step c m = none := by
  have hjoin : ∀ first count next, c.main ≠ .join first count next := by
    intro first count next hp
    rw [hp] at hmain
    simp [Prog.result?] at hmain
  have hkid : ∀ (i : Nat) (kid : Kid S), c.kids[i]? = some kid → pending? kid.prog = none :=
    fun i kid h => pending?_of_result? (hkids i kid h).2
  cases m with
  | tick => simp [step, tick, hrun]
  | answer t =>
    cases t with
    | main => simp [step, hrun, answer, pending?_of_result? hmain]
    | kid i =>
      cases hget : c.kids[i]? with
      | none => simp [step, hrun, answer, hget]
      | some kid => simp [step, hrun, answer, hget, hkid i kid hget]
  | event t =>
    cases t with
    | main => simp [step, hrun, event, pending?_of_result? hmain]
    | kid i =>
      cases hget : c.kids[i]? with
      | none => simp [step, hrun, event, hget]
      | some kid => simp [step, hrun, event, hget, hkid i kid hget]
  | start i =>
    cases hget : c.kids[i]? with
    | none => simp [step, hrun, start, hget]
    | some kid => simp [step, hrun, start, hget, (hkids i kid hget).1]
  | deliver i =>
    cases hp : c.main with
    | join first count next => exact absurd hp (hjoin first count next)
    | _ => simp [step, hrun, deliver, hp]
  | cancelJoin =>
    cases hp : c.main with
    | join first count next => exact absurd hp (hjoin first count next)
    | _ => simp [step, hrun, cancelJoin, hp]

lemma Reachable.eq_of_stuck {permits : Config S α → Move S → Prop} {c d : Config S α}
    (hstuck : ∀ m, M.step c m = none) (h : M.Reachable permits c d) : d = c := by
  induction h with
  | refl => rfl
  | step _ _ hstep ih =>
    subst ih
    rw [hstuck] at hstep
    cases hstep

end Machine
end DeterminFlow.Library.Coop
