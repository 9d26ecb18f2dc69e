/-
  Library.Coop.Total
  **PROGRAMS THAT END.**

  `wp` says what a program leaves when it ends.  `Ends` says that it ends: a task
  that runs alone, and whose waits are answered after finitely many events, takes
  finitely many steps whatever the events and the answers are.
-/
import DeterminFlow.Library.Coop.Rules
import Mathlib.Logic.Relation

namespace DeterminFlow.Library.Coop

variable {S : Sig}

/-! ## The predicate -/

abbrev Machine.Waits (M : Machine S) (op : S.Op) : S.State → S.State → Prop :=
  Relation.ReflTransGen (fun s s' => ∃ e, M.fire op e s = some s')

/-- **A program ends**, and leaves `Q`. -/
inductive Machine.Ends (M : Machine S) (t : Thread) {α : Type}
    (Q : Except S.Exn α → S.State → Prop) : Prog S α → S.State → Prop where
  | ret {a : α} {s : S.State} (h : Q (.ok a) s) : Ends M t Q (.ret a) s
  | raise {e : S.Exn} {s : S.State} (h : Q (.error e) s) : Ends M t Q (.raise e) s
  | atomic {update : S.State → S.State} {next : S.State → Prog S α} {s : S.State}
      (h : Ends M t Q (next s) (update s)) : Ends M t Q (.atomic update next) s
  | call {op : S.Op} {next : Except S.Exn S.Resp → Prog S α} {s : S.State}
      (h : ∀ s', M.Waits op s s' → ∀ r, M.accepts op r s' = true →
        Ends M t Q (next r) (M.settle t op r s')) : Ends M t Q (.call op next) s
  | loop {β γ : Type} {body : β → Prog S (β ⊕ γ)} {start : β} {next : γ → Prog S α}
      {s : S.State} (h : Ends M t Q (Prog.unroll body start next) s) :
      Ends M t Q (.loop body start next) s

variable {β γ α : Type} {f : α → Prog S β} {p : Prog S α}

lemma Prog.bind_assoc (p : Prog S α) (f : α → Prog S β) (g : β → Prog S γ) :
    (p.bind f).bind g = p.bind (fun a => (f a).bind g) := by
  induction p with
  | atomic update next ih => exact congrArg (Prog.atomic update) (funext fun s => ih s f)
  | call op next ih => exact congrArg (Prog.call op) (funext fun r => ih r f)
  | spawn args next ih => exact congrArg (Prog.spawn args) (funext fun i => ih i f)
  | join first count next ih => exact congrArg (Prog.join first count) (funext fun r => ih r f)
  | loop body start next _ ih => exact congrArg (Prog.loop body start) (funext fun c => ih c f)
  | _ => rfl

lemma Prog.unroll_bind {δ : Type} (body : β → Prog S (β ⊕ γ)) (start : β) (next : γ → Prog S α)
    (f : α → Prog S δ) :
    (Prog.unroll body start next).bind f = Prog.unroll body start (fun c => (next c).bind f) := by
  unfold Prog.unroll
  rw [Prog.bind_assoc]
  congr 1
  funext x
  cases x with
  | _ => rfl

namespace Machine

variable {M : Machine S} {t : Thread} {α β γ : Type}

/-! ## Composition -/

def thenEnds (M : Machine S) (t : Thread) (f : α → Prog S β) (Q : Except S.Exn β → S.State → Prop) :
    Except S.Exn α → S.State → Prop := fun r s =>
  match r with
  | .ok a => M.Ends t Q (f a) s
  | .error e => Q (.error e) s

variable {s : S.State} {p : Prog S α}

lemma Ends.bind {f : α → Prog S β} {Q : Except S.Exn β → S.State → Prop}
    (h : M.Ends t (thenEnds M t f Q) p s) : M.Ends t Q (p.bind f) s := by
  induction h with
  | ret h => exact h
  | raise h => exact .raise h
  | atomic _ ih => exact .atomic ih
  | call _ ih => exact .call ih
  | loop _ ih =>
    rw [Prog.unroll_bind] at ih
    exact .loop ih

lemma Ends.mono {Q Q' : Except S.Exn α → S.State → Prop} (h : M.Ends t Q p s)
    (hQ : ∀ r s, Q r s → Q' r s) : M.Ends t Q' p s := by
  induction h with
  | ret h => exact .ret (hQ _ _ h)
  | raise h => exact .raise (hQ _ _ h)
  | atomic _ ih => exact .atomic ih
  | call _ ih => exact .call ih
  | loop _ ih => exact .loop ih

def turnEnds (I : β → S.State → Prop) (rank : β → S.State → Nat)
    (Q : Except S.Exn γ → S.State → Prop) (bound : Nat) : Except S.Exn (β ⊕ γ) → S.State → Prop :=
  fun r s =>
    match r with
    | .ok (.inl b) => I b s ∧ rank b s < bound
    | .ok (.inr c) => Q (.ok c) s
    | .error e => Q (.error e) s

lemma Ends.repeatUntil {body : β → Prog S (β ⊕ γ)} {Q : Except S.Exn γ → S.State → Prop}
    (I : β → S.State → Prop) (rank : β → S.State → Nat)
    (hbody : ∀ b s, I b s → M.Ends t (turnEnds I rank Q (rank b s)) (body b) s) {start : β}
    (hstart : I start s) : M.Ends t Q (Prog.repeatUntil start body) s := by
  -- induction on the rank at which the loop stands
  have hloop : ∀ (n : Nat) (b : β) (s : S.State), rank b s ≤ n → I b s →
      M.Ends t Q (Prog.repeatUntil b body) s := by
    intro n
    induction n with
    | zero =>
      intro b s hrank hI
      refine .loop (Ends.bind ((hbody b s hI).mono ?_))
      intro r s' hr
      cases r with
      | error => exact hr
      | ok turn =>
        cases turn with
        | inl => exact absurd hr.2 (by omega)
        | inr => exact .ret hr
    | succ n ih =>
      intro b s hrank hI
      refine .loop (Ends.bind ((hbody b s hI).mono ?_))
      intro r s' hr
      cases r with
      | error => exact hr
      | ok turn =>
        cases turn with
        | inl b' =>
          obtain ⟨hI', _⟩ := hr
          exact ih b' s' (by omega) hI'
        | inr => exact .ret hr
  exact hloop (rank start s) start s (Nat.le_refl _) hstart

end Machine

/-! ## Programs without loops -/

def Prog.Straight : {α : Type} → Prog S α → Prop
  | _, .ret _ => True
  | _, .raise _ => True
  | _, .atomic _ next => ∀ s, (next s).Straight
  | _, .call _ next => ∀ r, (next r).Straight
  | _, _ => False

lemma Prog.Straight.bind (hp : p.Straight) (hf : ∀ a, (f a).Straight) : (p.bind f).Straight := by
  induction p with
  | ret a => exact hf a
  | raise => trivial
  | atomic update next ih => exact fun s => ih s (hp s) hf
  | call op next ih => exact fun r => ih r (hp r) hf
  | _ => exact absurd hp id

lemma Prog.Straight.seq (hp : p.Straight) (hf : ∀ a, (f a).Straight) : (p >>= f).Straight :=hp.bind hf

lemma Prog.Straight.modify {u : S.State → S.State} : (Prog.modify u).Straight :=
  fun _ => trivial

lemma Prog.Straight.get : (Prog.get : Prog S S.State).Straight := fun _ => trivial

lemma Prog.Straight.wait {op : S.Op} : (Prog.wait op).Straight := by
  intro r
  cases r with
  | _ => trivial

/-- **A program without loops ends** with what `wp` promises, in every environment. -/
theorem ends_of_wp {M : Machine S} (L : Logic M) {t : Thread} {Γ : Ctx S} (hΓ : Γ.fresh = [])
    (hanswer : ∀ op r s, L.answerOk t op r s) (hevent : ∀ op e s, L.eventOk t op e s)
    (hp : p.Straight) {Q : Logic.Post S α} {s : S.State} (h : L.wp t p Q Γ s) :
    M.Ends t (Q Γ) p s := by
  induction p generalizing s with
  | ret => exact .ret h
  | raise => exact .raise h
  | atomic update next ih => exact .atomic (ih s (hp s) h.2)
  | call op next ih =>
    obtain ⟨⟨hinv, -⟩, P, -, hP, hevents, hnext⟩ := h
    have hkept : ∀ s', M.Waits op s s' → P s' ∧ L.inv s' := by
      intro s' hwaits
      induction hwaits with
      | refl => exact ⟨hP, hinv⟩
      | tail _ hfire ihkept =>
        obtain ⟨e, hfire⟩ := hfire
        obtain ⟨-, hinv', hP'⟩ := hevents e _ _ ihkept.1 ihkept.2 (hevent op e _) hfire
        exact ⟨hP', hinv'⟩
    refine .call (fun s' hwaits r haccepts => ?_)
    obtain ⟨hP', hinv'⟩ := hkept s' hwaits
    obtain ⟨-, hwp⟩ := hnext r s' hP' hinv' haccepts (hanswer op r s')
    rw [Logic.settle_of_fresh hΓ] at hwp
    exact ih r (hp r) hwp
  | _ => exact absurd hp id

end DeterminFlow.Library.Coop
