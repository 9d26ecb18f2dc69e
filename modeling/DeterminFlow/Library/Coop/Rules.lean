/-
  Library.Coop.Rules
  **PROOF RULES FOR BASIC PROGRAMS.**

  The obligations of `Coop.Logic` for the programs written in `do` notation:
  one rule for each way a program can begin, and the composition rules for
  programs that carry one assertion through (`Carries`).
-/
import DeterminFlow.Library.Coop.Soundness
import Mathlib.Data.List.Nodup

namespace DeterminFlow.Library.Coop.Logic

/-! ## The beginning of a program -/

variable {S : Sig} {M : Machine S} (L : Logic M) {t : Thread} {α β : Type}
  {Q : Post S α} {Γ : Ctx S} {s : S.State} {a : α} {e : S.Exn} {f : β → Prog S α} {p : Prog S β}
  {u : S.State → S.State} {γ : Type} {body : β → Prog S (β ⊕ γ)}

lemma wp_pure (h : Q Γ (.ok a) s) : L.wp t (pure a) Q Γ s := h

lemma wp_raise (h : Q Γ (.error e) s) : L.wp t (Prog.raise e) Q Γ s := h

lemma wp_seq (h : L.wp t p (fun Γ r s =>
      match r with
      | .ok a => L.wp t (f a) Q Γ s
      | .error e => Q Γ (.error e) s) Γ s) : L.wp t (p >>= f) Q Γ s :=
  L.wp_bind _ _ _ _ _ (L.wp_mono p (fun _ r _ hr => by cases r <;> exact hr) Γ s h)

lemma wp_get (hrefl : L.guar t s s) {f : S.State → Prog S α} (h : L.wp t (f s) Q Γ s) :
    L.wp t (Prog.get >>= f) Q Γ s := ⟨hrefl, h⟩

lemma wp_modify {f : Unit → Prog S α} (hguar : L.guar t s (u s)) (h : L.wp t (f ()) Q Γ (u s)) :
    L.wp t (Prog.modify u >>= f) Q Γ s := ⟨hguar, h⟩

lemma wp_modify_last {Q : Post S Unit} (hguar : L.guar t s (u s)) (h : Q Γ (.ok ()) (u s)) :
    L.wp t (Prog.modify u) Q Γ s := ⟨hguar, h⟩

lemma settle_of_fresh (hΓ : Γ.fresh = []) : Γ.settle = Γ := by
  cases Γ
  simp_all [Ctx.settle]

lemma settled_of_fresh (hΓ : Γ.fresh = []) (hinv : L.inv s) : L.Settled Γ s :=
  ⟨hinv, by simp [hΓ]⟩

lemma wp_call {op : S.Op} {next : Except S.Exn S.Resp → Prog S α} (hΓ : Γ.fresh = [])
    (hinv : L.inv s) {P : S.State → Prop} (hstable : L.Stable t Γ P) (hP : P s)
    (hevents : L.EventsKeep t op P)
    (hanswer : ∀ r s', P s' → L.inv s' → M.accepts op r s' = true → L.answerOk t op r s' →
      L.guar t s' (M.settle t op r s') ∧ L.wp t (next r) Q Γ (M.settle t op r s')) :
    L.wp t (.call op next) Q Γ s := by
  refine ⟨L.settled_of_fresh hΓ hinv, P, hstable, hP, hevents, ?_⟩
  intro r s' hP' hinv' hacc hok
  rw [settle_of_fresh hΓ]
  exact hanswer r s' hP' hinv' hacc hok

lemma wp_repeatUntil {start : β} {Q : Post S γ} (I : β → Ctx S → S.State → Prop)
    (hstart : I start Γ s) (hbody : ∀ b Γ s, I b Γ s → L.wp t (body b) (fun Γ r s =>
      match r with
      | .ok (.inl b') => I b' Γ s
      | .ok (.inr c) => Q Γ (.ok c) s
      | .error e => Q Γ (.error e) s) Γ s) : L.wp t (Prog.repeatUntil start body) Q Γ s :=
  ⟨I, hstart, hbody⟩

/-! ## Carrying an assertion -/

def carried (A : Ctx S → S.State → Prop) (X : S.Exn → Ctx S → S.State → Prop) : Post S α :=
  fun Γ r s =>
    match r with
    | .ok _ => A Γ s
    | .error e => X e Γ s

/-- **A program carries an assertion**: started with `A` it ends with `A`, or
raises and leaves `X`. -/
def Carries (t : Thread) (A : Ctx S → S.State → Prop) (X : S.Exn → Ctx S → S.State → Prop)
    (p : Prog S α) : Prop :=
  ∀ Γ s, A Γ s → L.wp t p (carried A X) Γ s

variable {L} {A : Ctx S → S.State → Prop} {X : S.Exn → Ctx S → S.State → Prop}

lemma Carries.pure : L.Carries t A X (Pure.pure a) := fun _ _ h => h

lemma Carries.raise (h : ∀ Γ s, A Γ s → X e Γ s) : L.Carries t A X (Prog.raise e : Prog S α) :=h

lemma Carries.bind (hp : L.Carries t A X p) (hf : ∀ b, L.Carries t A X (f b)) :
    L.Carries t A X (p >>= f) := by
  intro Γ s h
  refine L.wp_seq (L.wp_mono p ?_ Γ s (hp Γ s h))
  intro Γ r s hr
  cases r with
  | ok b => exact hf b Γ s hr
  | error => exact hr

lemma Carries.atomic {next : S.State → Prog S α}
    (hu : ∀ Γ s, A Γ s → L.guar t s (u s) ∧ A Γ (u s)) (hnext : ∀ s, L.Carries t A X (next s)) :
    L.Carries t A X (.atomic u next) :=
  fun Γ s h => ⟨(hu Γ s h).1, hnext s Γ (u s) (hu Γ s h).2⟩

lemma Carries.get (hrefl : ∀ s, L.guar t s s) : L.Carries t A X Prog.get :=
  Carries.atomic (fun _ s h => ⟨hrefl s, h⟩) (fun _ => Carries.pure)

lemma Carries.modify (hu : ∀ Γ s, A Γ s → L.guar t s (u s) ∧ A Γ (u s)) :
    L.Carries t A X (Prog.modify u) :=
  Carries.atomic hu (fun _ => Carries.pure)

lemma Carries.repeatUntil {start : β} (hbody : ∀ b, L.Carries t A X (body b)) :
    L.Carries t A X (Prog.repeatUntil start body) := by
  intro Γ s h
  refine L.wp_repeatUntil (fun _ Γ s => A Γ s) h ?_
  intro b Γ s h
  refine L.wp_mono _ ?_ Γ s (hbody b Γ s h)
  intro Γ r s hr
  match r, hr with
  | .ok (.inl _), hr => exact hr
  | .ok (.inr _), hr => exact hr
  | .error _, hr => exact hr

lemma Carries.forEach {p : β → Prog S Unit} (hp : ∀ b, L.Carries t A X (p b)) (l : List β) :
    L.Carries t A X (Prog.forEach p l) := by
  induction l with
  | nil => exact Carries.pure
  | cons b rest ih => exact Carries.bind (hp b) (fun _ => ih)

lemma Carries.tryCatch {p : Prog S α} {handler : S.Exn → Prog S α}
    {X' : S.Exn → Ctx S → S.State → Prop} (hp : L.Carries t A X' p)
    (hhandler : ∀ e Γ s, X' e Γ s → L.wp t (handler e) (carried A X) Γ s) :
    L.Carries t A X (p.tryCatch handler) := by
  intro Γ s h
  refine L.wp_tryCatch _ _ _ _ _ (L.wp_mono p ?_ Γ s (hp Γ s h))
  intro Γ r s hr
  cases r with
  | ok => exact hr
  | error e => exact hhandler e Γ s hr

end DeterminFlow.Library.Coop.Logic

namespace DeterminFlow.Library.Coop

/-! ## Children a task waits for -/

variable {S : Sig}

def Ctx.Awaits (Γ : Ctx S) (left : Nat) : Prop :=
  Γ.waiting.length = left ∧ (Γ.waiting.map (·.1)).Nodup

lemma nodup_numbered (first : Nat) (args : List S.Arg) :
    ((numbered first args).map (·.1)).Nodup := by
  rw [List.nodup_iff_injective_getElem]
  intro _ _ hij
  simp only [numbered, List.getElem_map, List.getElem_mapIdx] at hij
  exact Fin.ext (by omega)

variable {Γ : Ctx S}

lemma Ctx.awaits_spawn (h : Γ.waiting = []) (args : List S.Arg) :
    (Γ.spawn args).Awaits args.length := by
  have hspawn : (Γ.spawn args).waiting = numbered Γ.next args := by
    simp [Ctx.spawn, h]
  refine ⟨?_, ?_⟩
  · rw [hspawn, numbered, List.length_mapIdx]
  rw [hspawn]
  exact nodup_numbered Γ.next args

lemma Ctx.Awaits.deliver {left : Nat} (h : Γ.Awaits (left + 1)) {i : Nat} {a : S.Arg}
    (hmem : (i, a) ∈ Γ.waiting) : (Γ.deliver i).Awaits left := by
  obtain ⟨_, hnodup⟩ := h
  have hone : (Γ.waiting.filter (fun x => decide (x.1 = i))).length = 1 := by
    have hcount : (Γ.waiting.map (·.1)).count i = 1 :=
      List.count_eq_one_of_mem hnodup (List.mem_map.2 ⟨(i, a), hmem, rfl⟩)
    rw [List.count, List.countP_map, List.countP_eq_length_filter] at hcount
    rw [← hcount]
    congr 1
  have hsplit := List.length_eq_length_filter_add (l := Γ.waiting) (fun x => decide (x.1 = i))
  have hdeliver : (Γ.deliver i).waiting = Γ.waiting.filter (fun x => !decide (x.1 = i)) := by
    simp only [Ctx.deliver, ne_eq, decide_not]
  refine ⟨?_, (List.filter_sublist.map _).nodup hnodup⟩
  rw [hdeliver]
  omega

lemma Ctx.Awaits.waiting_eq_nil (h : Γ.Awaits 0) : Γ.waiting = [] :=
  List.eq_nil_of_length_eq_zero h.1

end DeterminFlow.Library.Coop
