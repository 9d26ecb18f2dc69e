/-
  Library.Coop.Logic
  **A RELY-GUARANTEE LOGIC FOR COOPERATIVE PROGRAMS.**

  A global invariant holds whenever no task runs.  Each task promises what
  its updates may do to the state (`guar`); at a suspension point it names a
  condition that the promises of the other tasks keep (`Stable`).  `wp`
  reads these obligations off a program.  Child tasks come with a
  precondition, checked where the main task next suspends, and a
  postcondition that the main task gets when it joins them.

  The environment is only as free as `answerOk`, `eventOk` and `cancelOk`
  say: they are the assumptions about a run under which it is examined.
-/
import DeterminFlow.Library.Coop.Machine

namespace DeterminFlow.Library.Coop

/-- What the main task knows about its children: how many there are, whose
results are still to come, and which it has created since it last suspended. -/
structure Ctx (S : Sig) where
  next : Nat
  waiting : List (Nat × S.Arg)
  fresh : List (Nat × S.Arg)

def Ctx.empty (S : Sig) : Ctx S := ⟨0, [], []⟩

def Ctx.settle {S : Sig} (Γ : Ctx S) : Ctx S := { Γ with fresh := [] }

def numbered {S : Sig} (first : Nat) (args : List S.Arg) : List (Nat × S.Arg) :=
  args.mapIdx (fun j a => (first + j, a))

def Ctx.spawn {S : Sig} (Γ : Ctx S) (args : List S.Arg) : Ctx S where
  next := Γ.next + args.length
  waiting := Γ.waiting ++ numbered Γ.next args
  fresh := Γ.fresh ++ numbered Γ.next args

/-- The result of child `i` has come. -/
def Ctx.deliver {S : Sig} (Γ : Ctx S) (i : Nat) : Ctx S :=
  { Γ with waiting := Γ.waiting.filter (·.1 ≠ i), fresh := [] }

/-- Assertions, promises, and the assumptions about the environment. -/
structure Logic {S : Sig} (M : Machine S) where
  inv : S.State → Prop
  guar : Thread → S.State → S.State → Prop
  kidPre : Nat → S.Arg → S.State → Prop
  kidPost : Nat → S.Arg → Except S.Exn S.Out → S.State → Prop
  answerOk : Thread → S.Op → Except S.Exn S.Resp → S.State → Prop
  eventOk : Thread → S.Op → S.Ev → S.State → Prop
  cancelOk : S.State → Prop

namespace Logic

variable {S : Sig} {M : Machine S} (L : Logic M)

/-! ## Obligations of a program -/

/-- The tasks that may run while `t` is suspended: for the main task the
children it still waits for, for a child every other task. -/
def Rivals (t : Thread) (Γ : Ctx S) (t' : Thread) : Prop :=
  match t with
  | .main => ∃ i a, t' = .kid i ∧ (i, a) ∈ Γ.waiting
  | .kid _ => t' ≠ t

variable {t : Thread} {Γ : Ctx S} {α : Type}

lemma Rivals.ne {t' : Thread} (h : Rivals t Γ t') : t' ≠ t := by
  cases t with
  | main =>
    obtain ⟨_, _, rfl, _⟩ := h
    simp
  | kid => exact h

/-- The promises of the rivals keep `P`. -/
def Stable (t : Thread) (Γ : Ctx S) (P : S.State → Prop) : Prop :=
  ∀ t' s s', Rivals t Γ t' → L.inv s → L.inv s' → L.guar t' s s' → P s → P s'

/-- The pending operation keeps the promise, the invariant and `P`. -/
def EventsKeep (t : Thread) (op : S.Op) (P : S.State → Prop) : Prop :=
  ∀ e s s', P s → L.inv s → L.eventOk t op e s → M.fire op e s = some s' →
    L.guar t s s' ∧ L.inv s' ∧ P s'

def Settled (Γ : Ctx S) (s : S.State) : Prop :=
  L.inv s ∧ ∀ x ∈ Γ.fresh, L.kidPre x.1 x.2 s

abbrev Post (S : Sig) (α : Type) : Type := Ctx S → Except S.Exn α → S.State → Prop

/-- **Weakest precondition** of a program of task `t`. -/
def wp (t : Thread) : {α : Type} → Prog S α → Post S α → Ctx S → S.State → Prop
  | _, .ret a, Q, Γ, s => Q Γ (.ok a) s
  | _, .raise e, Q, Γ, s => Q Γ (.error e) s
  | _, .atomic update next, Q, Γ, s =>
    L.guar t s (update s) ∧ wp t (next s) Q Γ (update s)
  | _, .call op next, Q, Γ, s =>
    L.Settled Γ s ∧ ∃ P : S.State → Prop, L.Stable t Γ P ∧ P s ∧ L.EventsKeep t op P ∧
      ∀ r s', P s' → L.inv s' → M.accepts op r s' = true → L.answerOk t op r s' →
        L.guar t s' (M.settle t op r s') ∧
          wp t (next r) Q Γ.settle (M.settle t op r s')
  | _, .spawn args next, Q, Γ, s => t = .main ∧ wp t (next Γ.next) Q (Γ.spawn args) s
  | _, .join first count next, Q, Γ, s =>
    t = .main ∧ L.Settled Γ s ∧ ∃ P : S.State → Prop, L.Stable t Γ P ∧ P s ∧
      (∀ i a out s', (i, a) ∈ Γ.waiting → first ≤ i → i < first + count →
        P s' → L.inv s' → L.kidPost i a out s' → wp t (next out) Q (Γ.deliver i) s') ∧
      ∀ s', P s' → L.inv s' → L.cancelOk s' →
        L.guar t s' (M.settleCancel s') ∧
          wp t (next (.error M.cancelled)) Q Γ.settle (M.settleCancel s')
  | _, @Prog.loop _ _ β _ body start next, Q, Γ, s =>
    ∃ I : β → Ctx S → S.State → Prop, I start Γ s ∧ ∀ b Γ s, I b Γ s →
      wp t (body b) (fun Γ r s =>
        match r with
        | .ok (.inl b') => I b' Γ s
        | .ok (.inr c) => wp t (next c) Q Γ s
        | .error e => Q Γ (.error e) s) Γ s

def thenPost (t : Thread) {α β : Type} (f : α → Prog S β) (Q : Post S β) : Post S α :=
  fun Γ r s =>
    match r with
    | .ok a => L.wp t (f a) Q Γ s
    | .error e => Q Γ (.error e) s

/-! ## Rules of composition -/

variable {Q : Post S α}

section
variable {β : Type} {Q' : Post S β} {s : S.State}

lemma wp_call_next {op : S.Op} {next : Except S.Exn S.Resp → Prog S α}
    {next' : Except S.Exn S.Resp → Prog S β}
    (hnext : ∀ r Γ s, L.wp t (next r) Q Γ s → L.wp t (next' r) Q' Γ s)
    (h : L.wp t (.call op next) Q Γ s) : L.wp t (.call op next') Q' Γ s := by
  obtain ⟨hset, P, hst, hP, hev, hans⟩ := h
  exact ⟨hset, P, hst, hP, hev, fun r s' h1 h2 h3 h4 =>
    ⟨(hans r s' h1 h2 h3 h4).1, hnext r _ _ (hans r s' h1 h2 h3 h4).2⟩⟩

lemma wp_join_next {first count : Nat} {next : Except S.Exn S.Out → Prog S α}
    {next' : Except S.Exn S.Out → Prog S β}
    (hnext : ∀ out Γ s, L.wp t (next out) Q Γ s → L.wp t (next' out) Q' Γ s)
    (h : L.wp t (.join first count next) Q Γ s) : L.wp t (.join first count next') Q' Γ s := by
  obtain ⟨ht, hset, P, hst, hP, hkid, hcancel⟩ := h
  exact ⟨ht, hset, P, hst, hP,
    fun i a out s' h1 h2 h3 h4 h5 h6 => hnext out _ _ (hkid i a out s' h1 h2 h3 h4 h5 h6),
    fun s' h1 h2 h3 => ⟨(hcancel s' h1 h2 h3).1, hnext _ _ _ (hcancel s' h1 h2 h3).2⟩⟩

end

lemma wp_mono (p : Prog S α) {Q' : Post S α} (hQ : ∀ Γ r s, Q Γ r s → Q' Γ r s) (Γ : Ctx S)
    (s : S.State) (h : L.wp t p Q Γ s) : L.wp t p Q' Γ s := by
  induction p generalizing Γ s with
  | atomic update next ih => exact ⟨h.1, ih _ hQ _ _ h.2⟩
  | call op next ih => exact L.wp_call_next (fun r Γ s => ih r hQ Γ s) h
  | spawn args next ih => exact ⟨h.1, ih _ hQ _ _ h.2⟩
  | join first count next ih => exact L.wp_join_next (fun out Γ s => ih out hQ Γ s) h
  | loop body start next ihbody ihnext =>
    obtain ⟨I, hstart, hbody⟩ := h
    refine ⟨I, hstart, fun b Γ s hI => ihbody b ?_ Γ s (hbody b Γ s hI)⟩
    intro Γ r s hr
    match r, hr with
    | .ok (.inl _), hr => exact hr
    | .ok (.inr c), hr => exact ihnext c hQ Γ s hr
    | .error _, hr => exact hQ _ _ _ hr
  | _ => exact hQ _ _ _ h

lemma wp_bind {β : Type} (p : Prog S α) (f : α → Prog S β) (Q : Post S β) (Γ : Ctx S)
    (s : S.State) (h : L.wp t p (L.thenPost t f Q) Γ s) : L.wp t (p.bind f) Q Γ s := by
  induction p generalizing Γ s with
  | atomic update next ih => exact ⟨h.1, ih _ f _ _ h.2⟩
  | call op next ih => exact L.wp_call_next (fun r Γ s => ih r f Γ s) h
  | spawn args next ih => exact ⟨h.1, ih _ f _ _ h.2⟩
  | join first count next ih => exact L.wp_join_next (fun out Γ s => ih out f Γ s) h
  | loop body start next ihbody ihnext =>
    obtain ⟨I, hstart, hbody⟩ := h
    refine ⟨I, hstart, fun b Γ s hI => L.wp_mono (body b) ?_ Γ s (hbody b Γ s hI)⟩
    intro Γ r s hr
    match r, hr with
    | .ok (.inl _), hr => exact hr
    | .ok (.inr c), hr => exact ihnext c f Γ s hr
    | .error _, hr => exact hr
  | _ => exact h

/-- What `attempt` leaves: the outcome, as a value. -/
def attemptPost {α : Type} (Q : Post S (Except S.Exn α)) : Post S α :=
  fun Γ r s => Q Γ (.ok r) s

lemma wp_attempt (p : Prog S α) (Q : Post S (Except S.Exn α)) (Γ : Ctx S) (s : S.State)
    (h : L.wp t p (attemptPost Q) Γ s) : L.wp t p.attempt Q Γ s := by
  induction p generalizing Γ s with
  | atomic update next ih => exact ⟨h.1, ih _ _ _ _ h.2⟩
  | call op next ih => exact L.wp_call_next (fun r Γ s => ih r _ Γ s) h
  | spawn args next ih => exact ⟨h.1, ih _ _ _ _ h.2⟩
  | join first count next ih => exact L.wp_join_next (fun out Γ s => ih out _ Γ s) h
  | loop body start next ihbody ihnext =>
    obtain ⟨I, hstart, hbody⟩ := h
    rw [Prog.attempt]
    refine ⟨I, hstart, fun b Γ s hI => L.wp_bind _ _ _ _ _ (ihbody b _ Γ s ?_)⟩
    refine L.wp_mono (body b) ?_ Γ s (hbody b Γ s hI)
    intro Γ r s hr
    match r, hr with
    | .ok (.inl _), hr => exact hr
    | .ok (.inr c), hr => exact ihnext c _ Γ s hr
    | .error _, hr => exact hr
  | _ => exact h

lemma wp_tryCatch (p : Prog S α) (handler : S.Exn → Prog S α) (Q : Post S α) (Γ : Ctx S)
    (s : S.State) (h : L.wp t p (fun Γ r s =>
      match r with
      | .ok a => Q Γ (.ok a) s
      | .error e => L.wp t (handler e) Q Γ s) Γ s) : L.wp t (p.tryCatch handler) Q Γ s := by
  refine L.wp_bind _ _ _ _ _ (L.wp_attempt _ _ _ _ (L.wp_mono p ?_ Γ s h))
  intro Γ r s hr
  cases r <;> exact hr

lemma numbered_nil (first : Nat) : numbered first ([] : List S.Arg) = [] := rfl

lemma Ctx.spawn_nil (Γ : Ctx S) : Γ.spawn [] = Γ := by
  simp [Ctx.spawn, numbered_nil]

lemma wp_advance (hrefl : ∀ t s, L.guar t s s) (p : Prog S α) {s s' : S.State} {p' : Prog S α}
    {args : List S.Arg} (hp : p.advance Γ.next s = some (s', p', args)) (h : L.wp t p Q Γ s) :
    L.guar t s s' ∧ (args ≠ [] → t = .main) ∧ L.wp t p' Q (Γ.spawn args) s' := by
  cases p with
  | atomic =>
    simp only [Prog.advance, Option.some.injEq, Prod.mk.injEq] at hp
    obtain ⟨rfl, rfl, rfl⟩ := hp
    rw [Ctx.spawn_nil]
    exact ⟨h.1, by simp, h.2⟩
  | spawn =>
    simp only [Prog.advance, Option.some.injEq, Prod.mk.injEq] at hp
    obtain ⟨rfl, rfl, rfl⟩ := hp
    exact ⟨hrefl t s, fun _ => h.1, h.2⟩
  | loop =>
    simp only [Prog.advance, Option.some.injEq, Prod.mk.injEq] at hp
    obtain ⟨rfl, rfl, rfl⟩ := hp
    rw [Ctx.spawn_nil]
    obtain ⟨I, hstart, hbody⟩ := h
    refine ⟨hrefl t _, by simp, ?_⟩
    refine L.wp_bind _ _ _ _ _ (L.wp_mono _ ?_ _ _ (hbody _ _ _ hstart))
    intro Γ r s hr
    match r, hr with
    | .ok (.inl b'), hr => exact ⟨I, hr, hbody⟩
    | .ok (.inr c), hr => exact hr
    | .error e, hr => exact hr
  | _ => simp [Prog.advance] at hp

end Logic
end DeterminFlow.Library.Coop
