/-
  Library.Coop.Prog
  **COOPERATIVE PROGRAMS.**

  A program of one cooperative task: state updates that run without
  interruption, suspension points where other tasks may run (`call`), child
  tasks (`spawn`) and the next result among them (`join`), exceptions, and
  unbounded loops.  Programs are data, so a scheduler can interleave them
  (`Coop.Machine`) and assertions can be attached to their suspension points
  (`Coop.Logic`).

  A `while` loop is one constructor and not a fuelled recursion: what a
  program does is never cut short by the model.
-/
import Mathlib.Logic.Function.Basic

namespace DeterminFlow.Library.Coop

/-- What a family of programs is about. -/
structure Sig where
  /-- The state all tasks share. -/
  State : Type
  /-- Operations a task waits for. -/
  Op : Type
  /-- Their answers. -/
  Resp : Type
  /-- What a pending operation may do to the state before it answers. -/
  Ev : Type
  /-- Exceptions, cancellation among them. -/
  Exn : Type
  /-- Arguments of a child task. -/
  Arg : Type
  /-- Results of a child task. -/
  Out : Type

/-- Programs with result type `α`. -/
inductive Prog (S : Sig) : Type → Type 1 where
  | ret {α : Type} (value : α) : Prog S α
  | raise {α : Type} (exn : S.Exn) : Prog S α
  /-- Update the state; the rest of the program sees the state before. -/
  | atomic {α : Type} (update : S.State → S.State) (next : S.State → Prog S α) : Prog S α
  /-- Wait for the environment. -/
  | call {α : Type} (op : S.Op) (next : Except S.Exn S.Resp → Prog S α) : Prog S α
  /-- Create one child task per argument; the rest gets the number of the first. -/
  | spawn {α : Type} (args : List S.Arg) (next : Nat → Prog S α) : Prog S α
  /-- Wait for the next finished child among the `count` from `first` on. -/
  | join {α : Type} (first count : Nat) (next : Except S.Exn S.Out → Prog S α) : Prog S α
  /-- Repeat `body` until it answers `inr`. -/
  | loop {α β γ : Type} (body : β → Prog S (β ⊕ γ)) (start : β) (next : γ → Prog S α) : Prog S α

namespace Prog

variable {S : Sig}

/-! ## The monad -/

def bind : {α β : Type} → Prog S α → (α → Prog S β) → Prog S β
  | _, _, ret a, f => f a
  | _, _, raise e, _ => raise e
  | _, _, atomic update next, f => atomic update (fun s => (next s).bind f)
  | _, _, call op next, f => call op (fun r => (next r).bind f)
  | _, _, spawn args next, f => spawn args (fun i => (next i).bind f)
  | _, _, join first count next, f => join first count (fun r => (next r).bind f)
  | _, _, loop body start next, f => loop body start (fun c => (next c).bind f)

instance : Monad (Prog S) where
  pure := ret
  bind := bind

def attempt : {α : Type} → Prog S α → Prog S (Except S.Exn α)
  | _, ret a => ret (.ok a)
  | _, raise e => ret (.error e)
  | _, atomic update next => atomic update (fun s => (next s).attempt)
  | _, call op next => call op (fun r => (next r).attempt)
  | _, spawn args next => spawn args (fun i => (next i).attempt)
  | _, join first count next => join first count (fun r => (next r).attempt)
  | _, loop body start next =>
    loop
      (fun b => (body b).attempt.bind fun
        | Except.ok (.inl b') => ret (.inl b')
        | Except.ok (.inr c) => ret (.inr (Except.ok c))
        | Except.error e => ret (.inr (Except.error e)))
      start
      fun
        | Except.ok c => (next c).attempt
        | Except.error e => ret (Except.error e)

/-- `try p except e: handler e`. -/
def tryCatch {α : Type} (p : Prog S α) (handler : S.Exn → Prog S α) : Prog S α :=
  p.attempt.bind fun
    | .ok a => ret a
    | .error e => handler e

/-! ## Basic programs -/

def get : Prog S S.State := atomic id ret

def modify (f : S.State → S.State) : Prog S Unit := atomic f (fun _ => ret ())

def wait (op : S.Op) : Prog S S.Resp :=
  call op fun
    | .ok r => ret r
    | .error e => raise e

/-- `while True: body`, left by answering `inr`. -/
def repeatUntil {β γ : Type} (start : β) (body : β → Prog S (β ⊕ γ)) : Prog S γ :=
  loop body start ret

/-- Run `p` on each element in order. -/
def forEach {β : Type} (p : β → Prog S Unit) : List β → Prog S Unit
  | [] => ret ()
  | b :: rest => (p b).bind fun _ => forEach p rest

/-! ## One internal step -/

def result? {α : Type} : Prog S α → Option (Except S.Exn α)
  | ret a => some (.ok a)
  | raise e => some (.error e)
  | _ => none

def unroll {α β γ : Type} (body : β → Prog S (β ⊕ γ)) (start : β) (next : γ → Prog S α) :
    Prog S α :=
  (body start).bind fun
    | .inl b => loop body b next
    | .inr c => next c

/-- One step that needs no other task: the new state, the rest of the
program, and the child tasks it creates (numbered from `fresh` on).  `none`
at a suspension point and at the end. -/
def advance {α : Type} (fresh : Nat) (s : S.State) :
    Prog S α → Option (S.State × Prog S α × List S.Arg)
  | atomic update next => some (update s, next s, [])
  | spawn args next => some (s, next fresh, args)
  | loop body start next => some (s, unroll body start next, [])
  | _ => none

end Prog
end DeterminFlow.Library.Coop
