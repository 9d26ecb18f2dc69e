/-
  Library.Runs
  **RUNS OF A MACHINE THAT TAKES ONE EVENT AT A TIME.**

  A machine is a partial step function; a run is a list of events, each of
  which it can take.  Invariants are carried along a run, with or without a
  condition that each step of the run meets.
-/
import Mathlib.Data.List.Basic

namespace DeterminFlow.Library.Runs

open List Option

section
variable {σ ε : Type} (step : σ → ε → Option σ)

/-- The state after the events; `none` when one of them cannot happen. -/
def run : σ → List ε → Option σ
  | s, [] => some s
  | s, e :: rest => (step s e).bind (fun s' => run s' rest)

def Along (P : σ → ε → Prop) : σ → List ε → Prop
  | _, [] => True
  | s, e :: rest => P s e ∧ ∀ s', step s e = some s' → Along P s' rest

def Always (Q : σ → Prop) (s : σ) (events : List ε) : Prop :=
  ∀ pre s', pre <+: events → run step s pre = some s' → Q s'

@[simp] lemma run_nil (s : σ) : run step s [] = some s := rfl

lemma run_cons (s : σ) (e : ε) (rest : List ε) :
    run step s (e :: rest) = (step s e).bind (fun s' => run step s' rest) := rfl

variable {s' s m : σ} {e : ε} {P : σ → ε → Prop} {I Q : σ → Prop}

lemma run_cons_eq_some {rest : List ε} :
    run step s (e :: rest) = some s' ↔ ∃ m, step s e = some m ∧ run step m rest = some s' := by
  rw [run_cons, bind_eq_some_iff]

lemma run_append (s : σ) (front back : List ε) :
    run step s (front ++ back) = (run step s front).bind (fun m => run step m back) := by
  induction front generalizing s with
  | nil => rfl
  | cons e rest ih =>
    rw [cons_append, run_cons, run_cons]
    cases step s e with
    | none => rfl
    | some m => exact ih m

variable {step}

lemma invariant_along (hstep : ∀ s e s', I s → P s e → step s e = some s' → I s')
    {events : List ε} (h : I s) (halong : Along step P s events)
    (hrun : run step s events = some s') : I s' := by
  induction events generalizing s with
  | nil =>
    obtain rfl := some.inj hrun
    exact h
  | cons e rest ih =>
    obtain ⟨m, hm, hrest⟩ := (run_cons_eq_some step).1 hrun
    exact ih (hstep s e m h halong.1 hm) (halong.2 m hm) hrest

lemma invariant (hstep : ∀ s e s', I s → step s e = some s' → I s') {events : List ε} (h : I s)
    (hrun : run step s events = some s') : I s' := by
  induction events generalizing s with
  | nil =>
    obtain rfl := some.inj hrun
    exact h
  | cons e rest ih =>
    obtain ⟨m, hm, hrest⟩ := (run_cons_eq_some step).1 hrun
    exact ih (hstep s e m h hm) hrest

lemma Along.isPrefix {pre events : List ε} (h : Along step P s events) (hpre : pre <+: events) :
    Along step P s pre := by
  induction pre generalizing s events with
  | nil => trivial
  | cons e rest ih =>
    obtain ⟨tail, rfl⟩ := hpre
    exact ⟨h.1, fun m hm => ih (h.2 m hm) ⟨tail, rfl⟩⟩

lemma Along.rest {P : σ → ε → Prop} {s m : σ} {front back : List ε}
    (h : Along step P s (front ++ back)) (hfront : run step s front = some m) : Along step P m back := by
  induction front generalizing s with
  | nil =>
    obtain rfl := some.inj hfront
    exact h
  | cons e rest ih =>
    obtain ⟨n, hn, hrest⟩ := (run_cons_eq_some step).1 hfront
    exact ih (h.2 n hn) hrest

lemma always_of_along (hstep : ∀ s e s', I s → P s e → step s e = some s' → I s')
    {events : List ε} (h : I s) (halong : Along step P s events) : Always step I s events := by
  intro _ s' hpre hrun
  exact invariant_along hstep h (halong.isPrefix hpre) hrun

lemma Always.mono {Q' : σ → Prop} (himp : ∀ s, Q s → Q' s) {events : List ε}
    (h : Always step Q s events) : Always step Q' s events := by
  intro pre s' hpre hrun
  exact himp s' (h pre s' hpre hrun)

lemma Always.rest {front back : List ε} (h : Always step Q s (front ++ back))
    (hfront : run step s front = some m) : Always step Q m back := by
  intro pre s' hpre hrun
  refine h (front ++ pre) s' ((prefix_append_right_inj front).2 hpre) ?_
  rw [run_append, hfront]
  exact hrun

lemma along_cons_some {rest : List ε} (h : step s e = some m) :
    Along step P s (e :: rest) ↔ P s e ∧ Along step P m rest := by
  constructor
  · exact fun halong => ⟨halong.1, halong.2 m h⟩
  intro halong
  refine ⟨halong.1, fun _ hm' => ?_⟩
  obtain rfl := some.inj (h.symm.trans hm')
  exact halong.2

lemma along_cons_none {rest : List ε} (h : step s e = none) :
    Along step P s (e :: rest) ↔ P s e := by
  constructor
  · exact fun halong => halong.1
  exact fun hP => ⟨hP, fun _ hm => absurd (h.symm.trans hm) (by simp)⟩

lemma along_of_forall {P : ε → Prop} {events : List ε} (h : ∀ e ∈ events, P e) :
    Along step (fun _ e => P e) s events := by
  induction events generalizing s with
  | nil => trivial
  | cons e rest ih =>
    exact ⟨h e mem_cons_self, fun _ _ => ih (fun e' he' => h e' (mem_cons_of_mem e he'))⟩

/-- A decidable condition can be checked along a run. -/
instance decidableAlong {P : σ → ε → Prop} [∀ s e, Decidable (P s e)] :
    ∀ s events, Decidable (Along step P s events)
  | _, [] => .isTrue trivial
  | s, e :: rest =>
    match h : step s e with
    | none => decidable_of_iff _ (along_cons_none h).symm
    | some m =>
      have := decidableAlong (P := P) m rest
      decidable_of_iff _ (along_cons_some h).symm

lemma exists_failing {events : List ε} (h : ¬ Along step P s events) :
    ∃ front e back m, events = front ++ e :: back ∧ run step s front = some m ∧
      Along step P s front ∧ ¬ P m e := by
  induction events generalizing s with
  | nil => exact absurd trivial h
  | cons e rest ih =>
    by_cases hP : P s e
    · have hrest : ∃ m, step s e = some m ∧ ¬ Along step P m rest := by
        by_contra hnone
        refine h ⟨hP, fun m hm => ?_⟩
        by_contra hm'
        exact hnone ⟨m, hm, hm'⟩
      obtain ⟨m, hm, hfails⟩ := hrest
      obtain ⟨front, e', back, m', rfl, hrun, halong, hfail⟩ := ih hfails
      refine ⟨e :: front, e', back, m', rfl, ?_, ⟨hP, fun _ hm'' => ?_⟩, hfail⟩
      · rw [run_cons, hm]
        exact hrun
      rw [hm, some.injEq] at hm''
      exact hm'' ▸ halong
    exact ⟨[], e, rest, s, rfl, rfl, trivial, hP⟩

end
end DeterminFlow.Library.Runs
