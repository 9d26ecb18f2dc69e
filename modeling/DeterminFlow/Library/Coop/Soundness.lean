/-
  Library.Coop.Soundness
  **SOUNDNESS OF THE RELY-GUARANTEE LOGIC.**

  `Good` is the invariant of a run: while no task runs, every task rests at
  a suspension point whose condition holds; while one runs, its remaining
  program has its precondition and the others still rest on the state at
  which it was resumed.  Each machine step keeps it (`good_step`), so it
  holds of every configuration reached (`sound`).
-/
import DeterminFlow.Library.Coop.Logic

namespace DeterminFlow.Library.Coop

open List Option Machine

namespace Logic

variable {S : Sig} {M : Machine S} (L : Logic M)

/-! ## Resting tasks -/

def Rest (t : Thread) {α : Type} (p : Prog S α) (Q : Post S α) (Γ : Ctx S) (s : S.State) :
    Prop :=
  match p with
  | .ret a => Q Γ (.ok a) s
  | .raise e => Q Γ (.error e) s
  | .call op next =>
    ∃ P : S.State → Prop, L.Stable t Γ P ∧ P s ∧ L.EventsKeep t op P ∧
      ∀ r s', P s' → L.inv s' → M.accepts op r s' = true → L.answerOk t op r s' →
        L.guar t s' (M.settle t op r s') ∧
          L.wp t (next r) Q Γ.settle (M.settle t op r s')
  | .join first count next =>
    ∃ P : S.State → Prop, L.Stable t Γ P ∧ P s ∧
      (∀ i a out s', (i, a) ∈ Γ.waiting → first ≤ i → i < first + count →
        P s' → L.inv s' → L.kidPost i a out s' → L.wp t (next out) Q (Γ.deliver i) s') ∧
      ∀ s', P s' → L.inv s' → L.cancelOk s' →
        L.guar t s' (M.settleCancel s') ∧
          L.wp t (next (.error M.cancelled)) Q Γ.settle (M.settleCancel s')
  | _ => False

def kidQ (i : Nat) (a : S.Arg) : Post S S.Out := fun _ r s => L.inv s ∧ L.kidPost i a r s

def mainQ {α : Type} (post : List (Nat × S.Arg) → Except S.Exn α → S.State → Prop) :
    Post S α := fun Γ r s => L.Settled Γ s ∧ post Γ.waiting r s

def PostStable {α : Type} (post : List (Nat × S.Arg) → Except S.Exn α → S.State → Prop) : Prop :=
  ∀ w r i a, (i, a) ∈ w → ∀ s s', L.inv s → L.inv s' → L.guar (.kid i) s s' →
    post w r s → post w r s'

/-- The side conditions on a logic. -/
structure Laws : Prop where
  guar_refl : ∀ t s, L.guar t s s
  guar_trans : ∀ t s₁ s₂ s₃, L.guar t s₁ s₂ → L.guar t s₂ s₃ → L.guar t s₁ s₃
  kidPre_stable : ∀ i a, L.Stable (.kid i) (Ctx.empty S) (L.kidPre i a)
  kidPost_stable : ∀ i a r, L.Stable (.kid i) (Ctx.empty S) (L.kidPost i a r)
  kid_wp : ∀ i a s, L.inv s → L.kidPre i a s →
    L.wp (.kid i) (M.body i a) (L.kidQ i a) (Ctx.empty S) s

lemma Rest.stable {t : Thread} {α : Type} {p : Prog S α} {Q : Post S α} {Γ : Ctx S}
    (hQ : ∀ r, L.Stable t Γ (Q Γ r)) : L.Stable t Γ (L.Rest t p Q Γ) := by
  intro t' s s' hne hs hs' hguar h
  cases p with
  | call =>
    obtain ⟨P, hst, hP, hev, hans⟩ := h
    exact ⟨P, hst, hst t' s s' hne hs hs' hguar hP, hev, hans⟩
  | join =>
    obtain ⟨P, hst, hP, hkid, hcancel⟩ := h
    exact ⟨P, hst, hst t' s s' hne hs hs' hguar hP, hkid, hcancel⟩
  | atomic => exact h
  | spawn => exact h
  | loop => exact h
  | _ => exact hQ _ t' s s' hne hs hs' hguar h

def KidRest (i : Nat) (kid : Kid S) (s : S.State) : Prop :=
  (kid.started = false ∧ kid.prog = M.body i kid.arg ∧ L.kidPre i kid.arg s) ∨
    (kid.started = true ∧ L.Rest (.kid i) kid.prog (L.kidQ i kid.arg) (Ctx.empty S) s)

lemma KidRest.stable (hlaws : L.Laws) {i : Nat} {kid : Kid S} :
    L.Stable (.kid i) (Ctx.empty S) (L.KidRest i kid) := by
  intro t' s s' hne hs hs' hguar h
  rcases h with ⟨hstart, hprog, hpre⟩ | ⟨hstart, hrest⟩
  · exact .inl ⟨hstart, hprog, hlaws.kidPre_stable i _ t' s s' hne hs hs' hguar hpre⟩
  refine .inr ⟨hstart, Rest.stable L (fun r => ?_) t' s s' hne hs hs' hguar hrest⟩
  intro u s₁ s₂ hu h₁ h₂ hg hq
  exact ⟨h₂, hlaws.kidPost_stable i _ r u s₁ s₂ hu h₁ h₂ hg hq.2⟩

lemma rest_of_wp {t : Thread} {α : Type} {p : Prog S α} {Q : Post S α} {Γ : Ctx S}
    {s : S.State} {n : Nat} (hp : p.advance n s = none)
    (hfin : ∀ r, Q Γ r s → L.Settled Γ s ∧ Q Γ.settle r s) (h : L.wp t p Q Γ s) :
    L.Settled Γ s ∧ L.Rest t p Q Γ.settle s := by
  cases p with
  | ret => exact hfin _ h
  | raise => exact hfin _ h
  | call => exact ⟨h.1, h.2⟩
  | join => exact ⟨h.2.1, h.2.2⟩
  | _ => simp [Prog.advance] at hp

/-! ## The invariant of a run -/

/-- The context agrees with the children. -/
structure Tracks {α : Type} (Γ : Ctx S) (c : Config S α) : Prop where
  next : Γ.next = c.kids.length
  waiting : ∀ i a, (i, a) ∈ Γ.waiting ↔
    ∃ kid, c.kids[i]? = some kid ∧ kid.arg = a ∧ kid.delivered = false
  /-- Only finished children are delivered. -/
  delivered : ∀ (i : Nat) (kid : Kid S), c.kids[i]? = some kid → kid.delivered = true →
    kid.started = true ∧ kid.prog.result?.isSome

def permits {α : Type} (c : Config S α) : Move S → Prop
  | .answer t r => ∀ op, Machine.pendingOp? c t = some op → L.answerOk t op r c.state
  | .event t e => ∀ op, Machine.pendingOp? c t = some op → L.eventOk t op e c.state
  | .cancelJoin => L.cancelOk c.state
  | _ => True

/-- **The invariant of a run.** -/
def Good {α : Type} (post : List (Nat × S.Arg) → Except S.Exn α → S.State → Prop)
    (c : Config S α) : Prop :=
  ∃ Γ, Tracks Γ c ∧
    match c.running with
    | none =>
      L.inv c.state ∧ Γ.fresh = [] ∧ L.Rest .main c.main (L.mainQ post) Γ c.state ∧
        ∀ i kid, c.kids[i]? = some kid → L.KidRest i kid c.state
    | some .main =>
      ∃ s₀, L.inv s₀ ∧ L.guar .main s₀ c.state ∧ L.wp .main c.main (L.mainQ post) Γ c.state ∧
        ∀ i kid, c.kids[i]? = some kid → L.KidRest i kid s₀ ∨
          ((i, kid.arg) ∈ Γ.fresh ∧ kid.started = false ∧ kid.prog = M.body i kid.arg)
    | some (.kid j) =>
      ∃ s₀, L.inv s₀ ∧ L.guar (.kid j) s₀ c.state ∧ Γ.fresh = [] ∧
        L.Rest .main c.main (L.mainQ post) Γ s₀ ∧
        (∃ kid, c.kids[j]? = some kid ∧ kid.started = true ∧ kid.delivered = false ∧
          L.wp (.kid j) kid.prog (L.kidQ j kid.arg) (Ctx.empty S) c.state) ∧
        ∀ i kid, i ≠ j → c.kids[i]? = some kid → L.KidRest i kid s₀

lemma Tracks.set {α : Type} {Γ : Ctx S} {c : Config S α} (h : Tracks Γ c) {i : Nat}
    {kid kid' : Kid S} (hkid : c.kids[i]? = some kid) (harg : kid'.arg = kid.arg)
    (hdel : kid'.delivered = false) (hundel : kid.delivered = false) (c' : Config S α)
    (hc' : c'.kids = c.kids.set i kid') : Tracks Γ c' where
  next := by rw [hc', length_set]; exact h.next
  waiting := by
    intro j _
    rw [h.waiting, hc']
    by_cases hij : i = j
    · subst hij
      obtain ⟨hlt, hget⟩ := List.getElem?_eq_some_iff.1 hkid
      simp [hlt, hget, harg, hdel, hundel]
    simp [hij]
  delivered := by
    intro j k hk hkdel
    rw [hc'] at hk
    by_cases hij : i = j
    · subst hij
      obtain ⟨hlt, _⟩ := List.getElem?_eq_some_iff.1 hkid
      rw [getElem?_set_self hlt] at hk
      obtain rfl := some.inj hk
      rw [hdel] at hkdel
      cases hkdel
    rw [getElem?_set_ne hij] at hk
    exact h.delivered j k hk hkdel

lemma Tracks.undelivered {α : Type} {Γ : Ctx S} {c : Config S α} (h : Tracks Γ c) {i : Nat}
    {kid : Kid S} (hkid : c.kids[i]? = some kid)
    (hopen : kid.started = false ∨ kid.prog.result? = none) : kid.delivered = false := by
  cases hdel : kid.delivered with
  | false => rfl
  | true =>
    obtain ⟨hstart, hdone⟩ := h.delivered i kid hkid hdel
    rcases hopen with hopen | hopen
    · rw [hstart] at hopen
      cases hopen
    rw [hopen] at hdone
    cases hdone

lemma mainQ_fin {α : Type} {post : List (Nat × S.Arg) → Except S.Exn α → S.State → Prop}
    {Γ : Ctx S} {s : S.State} (r : Except S.Exn α) (h : L.mainQ post Γ r s) :
    L.Settled Γ s ∧ L.mainQ post Γ.settle r s :=
  ⟨h.1, ⟨h.1.1, by simp [Ctx.settle]⟩, h.2⟩

lemma mainQ_stable {α : Type} {post : List (Nat × S.Arg) → Except S.Exn α → S.State → Prop}
    (hpost : L.PostStable post) {Γ : Ctx S} (hΓ : Γ.fresh = []) (r : Except S.Exn α) :
    L.Stable .main Γ (L.mainQ post Γ r) := by
  intro _ s s' hriv hs hs' hguar h
  obtain ⟨i, a, rfl, hmem⟩ := hriv
  exact ⟨⟨hs', by simp [hΓ]⟩, hpost _ r i a hmem s s' hs hs' hguar h.2⟩

section
variable {α : Type} {post : List (Nat × S.Arg) → Except S.Exn α → S.State → Prop}
  {c d : Config S α}

lemma getElem?_newKids (first : Nat) (args : List S.Arg) (j : Nat) (kid : Kid S)
    (h : (M.newKids first args)[j]? = some kid) :
    kid.started = false ∧ kid.delivered = false ∧ kid.prog = M.body (first + j) kid.arg ∧
      (first + j, kid.arg) ∈ numbered first args := by
  simp only [newKids, getElem?_mapIdx, map_eq_some_iff] at h
  obtain ⟨_, ha, rfl⟩ := h
  refine ⟨rfl, rfl, rfl, ?_⟩
  obtain ⟨hlt, hget⟩ := List.getElem?_eq_some_iff.1 ha
  refine mem_mapIdx.2 ⟨j, hlt, ?_⟩
  rw [hget]

lemma mem_numbered {first : Nat} {args : List S.Arg} {i : Nat} {a : S.Arg} :
    (i, a) ∈ numbered first args ↔ first ≤ i ∧ args[i - first]? = some a := by
  simp only [numbered, mem_mapIdx, Prod.mk.injEq]
  constructor
  · rintro ⟨_, hj, rfl, rfl⟩
    refine ⟨Nat.le_add_right _ _, ?_⟩
    rw [Nat.add_sub_cancel_left]
    exact getElem?_eq_getElem hj
  rintro ⟨_, hget⟩
  obtain ⟨hlt, hget⟩ := List.getElem?_eq_some_iff.1 hget
  exact ⟨i - first, hlt, by omega, hget⟩

lemma Tracks.spawn {Γ : Ctx S} (h : Tracks Γ c) (args : List S.Arg) (c' : Config S α)
    (hc' : c'.kids = c.kids ++ M.newKids c.kids.length args) : Tracks (Γ.spawn args) c' where
  next := by
    rw [hc']
    simp [Ctx.spawn, newKids, h.next]
  waiting := by
    intro i _
    simp only [Ctx.spawn, mem_append, h.waiting, mem_numbered, h.next, hc', getElem?_append]
    by_cases hi : i < c.kids.length
    · have hno : ¬ c.kids.length ≤ i := by omega
      simp [hi, hno]
    have hnone : c.kids[i]? = none := getElem?_eq_none (by omega)
    have hle : c.kids.length ≤ i := by omega
    simp only [hnone, hle, true_and, hi, if_false, newKids, getElem?_mapIdx]
    constructor
    · rintro (⟨kid, hk, _⟩ | hget)
      · cases hk
      exact ⟨_, by rw [hget]; rfl, rfl, rfl⟩
    rintro ⟨kid, hk, rfl, _⟩
    right
    obtain ⟨_, hb, rfl⟩ := map_eq_some_iff.1 hk
    exact hb
  delivered := by
    intro i kid hkid hdel
    rw [hc', getElem?_append] at hkid
    split at hkid
    · exact h.delivered i kid hkid hdel
    rw [(getElem?_newKids _ _ _ _ hkid).2.1] at hdel
    cases hdel

variable (hlaws : L.Laws) (hpost : L.PostStable post)
include hlaws

lemma good_tick_main (hrun : c.running = some .main) (h : L.Good post c)
    (hstep : M.tick c = some d) : L.Good post d := by
  obtain ⟨Γ, htrack, hgood⟩ := h
  rw [hrun] at hgood
  obtain ⟨s₀, hs₀, hguar, hwp, hkids⟩ := hgood
  rw [Machine.tick, hrun] at hstep
  cases hadv : c.main.advance c.kids.length c.state with
  | none =>
    simp only [hadv, some.injEq] at hstep
    subst hstep
    obtain ⟨hset, hrest⟩ := L.rest_of_wp hadv (fun r => L.mainQ_fin r) hwp
    refine ⟨Γ.settle, ⟨htrack.next, htrack.waiting, htrack.delivered⟩, hset.1, rfl, hrest, ?_⟩
    intro i kid hkid
    rcases hkids i kid hkid with hk | ⟨hfresh, hstart, hprog⟩
    · exact KidRest.stable L hlaws .main s₀ c.state (by simp [Rivals]) hs₀ hset.1 hguar hk
    exact .inl ⟨hstart, hprog, hset.2 _ hfresh⟩
  | some adv =>
    obtain ⟨_, _, args⟩ := adv
    simp only [hadv, some.injEq] at hstep
    subst hstep
    rw [← htrack.next] at hadv
    obtain ⟨hg, _, hwp'⟩ := L.wp_advance hlaws.guar_refl c.main hadv hwp
    refine ⟨Γ.spawn args, htrack.spawn args _ rfl, ?_⟩
    simp only
    refine ⟨s₀, hs₀, hlaws.guar_trans _ _ _ _ hguar hg, hwp', ?_⟩
    intro i kid hkid
    rw [getElem?_append] at hkid
    split at hkid
    · rcases hkids i kid hkid with hk | ⟨hfresh, hstart, hprog⟩
      · exact .inl hk
      exact .inr ⟨mem_append_left _ hfresh, hstart, hprog⟩
    rename_i hle
    obtain ⟨hstart, _, hprog, hmem⟩ := getElem?_newKids _ _ _ _ hkid
    rw [Nat.add_sub_cancel' (by omega)] at hprog hmem
    rw [← htrack.next] at hmem
    exact .inr ⟨mem_append_right _ hmem, hstart, hprog⟩

include hpost in
lemma good_tick_kid {j : Nat} (hrun : c.running = some (.kid j)) (h : L.Good post c)
    (hstep : M.tick c = some d) : L.Good post d := by
  obtain ⟨Γ, htrack, hgood⟩ := h
  rw [hrun] at hgood
  obtain ⟨s₀, hs₀, hguar, hfresh, hmain, ⟨kid, hkid, hstart, hundel, hwp⟩, hkids⟩ := hgood
  rw [Machine.tick, hrun] at hstep
  simp only [hkid, bind_some] at hstep
  cases hadv : kid.prog.advance c.kids.length c.state with
  | none =>
    simp only [hadv, some.injEq] at hstep
    subst hstep
    obtain ⟨hset, hrest⟩ := L.rest_of_wp hadv
      (fun _ hq => ⟨⟨hq.1, by simp [Ctx.empty]⟩, hq⟩) hwp
    refine ⟨Γ, ⟨htrack.next, htrack.waiting, htrack.delivered⟩, hset.1, hfresh, ?_, ?_⟩
    · have hwait : (j, kid.arg) ∈ Γ.waiting :=
        (htrack.waiting j kid.arg).2 ⟨kid, hkid, rfl, hundel⟩
      exact Rest.stable L (L.mainQ_stable hpost hfresh) (.kid j) s₀ c.state
        ⟨j, kid.arg, rfl, hwait⟩ hs₀ hset.1 hguar hmain
    intro i kid' hkid'
    by_cases hij : i = j
    · subst hij
      rw [hkid] at hkid'
      obtain rfl := some.inj hkid'
      exact .inr ⟨hstart, hrest⟩
    exact KidRest.stable L hlaws (.kid j) s₀ c.state
      (by simpa [Rivals] using fun h => hij h.symm) hs₀ hset.1 hguar (hkids i kid' hij hkid')
  | some adv =>
    obtain ⟨s', p', args⟩ := adv
    cases args with
    | cons => simp [hadv] at hstep
    | nil =>
      simp only [hadv, some.injEq] at hstep
      subst hstep
      have hadv' : kid.prog.advance (Ctx.empty S).next c.state = some (s', p', []) := by
        cases hp : kid.prog with
        | spawn =>
          -- a child may not create children
          rw [hp] at hwp
          exact absurd hwp.1 (by simp)
        | _ => rw [hp] at hadv; exact hadv
      obtain ⟨hg, _, hwp'⟩ := L.wp_advance hlaws.guar_refl kid.prog hadv' hwp
      rw [Ctx.spawn_nil] at hwp'
      refine ⟨Γ, htrack.set hkid (by rfl) (by exact hundel) hundel _ rfl, ?_⟩
      simp only
      refine ⟨s₀, hs₀, hlaws.guar_trans _ _ _ _ hguar hg, hfresh, hmain, ?_, ?_⟩
      · have hlt : j < c.kids.length := (List.getElem?_eq_some_iff.1 hkid).1
        exact ⟨{ kid with prog := p' }, by simp [hlt], hstart, hundel, hwp'⟩
      intro i kid' hij hkid'
      rw [getElem?_set_ne (Ne.symm hij)] at hkid'
      exact hkids i kid' hij hkid'

omit hlaws in
lemma good_answer {t : Thread} {r : Except S.Exn S.Resp} (hrun : c.running = none)
    (hok : L.permits c (.answer t r)) (h : L.Good post c)
    (hstep : M.answer c t r = some d) : L.Good post d := by
  obtain ⟨Γ, htrack, hgood⟩ := h
  rw [hrun] at hgood
  obtain ⟨hinv, hfresh, hmain, hkids⟩ := hgood
  have hsettle : Γ.settle = Γ := by cases Γ; simp_all [Ctx.settle]
  cases t with
  | main =>
    rw [Machine.answer] at hstep
    obtain ⟨⟨op, next⟩, hpend, hstep⟩ := bind_eq_some_iff.1 hstep
    simp only at hstep
    obtain ⟨hacc, rfl⟩ : M.accepts op r c.state = true ∧ _ := by
      split at hstep
      · exact ⟨‹_›, some.inj hstep⟩
      cases hstep
    cases hp : c.main with
    | call op' next' =>
      rw [hp] at hpend hmain
      simp only [Machine.pending?, some.injEq, Prod.mk.injEq] at hpend
      obtain ⟨rfl, rfl⟩ := hpend
      obtain ⟨P, _, hP, _, hans⟩ := hmain
      have hansok : L.answerOk .main op' r c.state :=
        hok op' (by simp [pendingOp?, hp, Machine.pending?])
      obtain ⟨hguar, hwp⟩ := hans r c.state hP hinv hacc hansok
      refine ⟨Γ, ⟨htrack.next, htrack.waiting, htrack.delivered⟩, c.state, hinv, hguar, ?_,
        fun i kid hkid => .inl (hkids i kid hkid)⟩
      rw [← hsettle]
      exact hwp
    | _ => rw [hp] at hpend; simp [Machine.pending?] at hpend
  | kid j =>
    rw [Machine.answer] at hstep
    obtain ⟨kid, hkid, hstep⟩ := bind_eq_some_iff.1 hstep
    obtain ⟨⟨op, next⟩, hpend, hstep⟩ := bind_eq_some_iff.1 hstep
    simp only at hstep
    obtain ⟨hcond, rfl⟩ : (kid.started && M.accepts op r c.state) = true ∧ _ := by
      split at hstep
      · exact ⟨‹_›, some.inj hstep⟩
      cases hstep
    simp only [Bool.and_eq_true] at hcond
    have hlt : j < c.kids.length := (List.getElem?_eq_some_iff.1 hkid).1
    cases hp : kid.prog with
    | call op' next' =>
      have hpend' := hpend
      rw [hp] at hpend
      simp only [Machine.pending?, some.injEq, Prod.mk.injEq] at hpend
      obtain ⟨rfl, rfl⟩ := hpend
      rcases hkids j kid hkid with ⟨hns, _⟩ | ⟨_, hrest⟩
      · rw [hns] at hcond
        exact absurd hcond.1 (by simp)
      rw [hp] at hrest
      obtain ⟨P, _, hP, _, hans⟩ := hrest
      have hansok : L.answerOk (.kid j) op' r c.state :=
        hok op' (by simp [pendingOp?, hkid, hpend'])
      obtain ⟨hguar, hwp⟩ := hans r c.state hP hinv hcond.2 hansok
      have hundel := htrack.undelivered hkid (.inr (by rw [hp]; rfl))
      refine ⟨Γ, htrack.set hkid (by rfl) (by exact hundel) hundel _ rfl, c.state, hinv, hguar, hfresh,
        hmain, ⟨{ kid with prog := next' r }, by simp [hlt], hcond.1, hundel, hwp⟩, ?_⟩
      · intro i kid' hij hkid'
        rw [getElem?_set_ne (Ne.symm hij)] at hkid'
        exact hkids i kid' hkid'
    | _ => rw [hp] at hpend; simp [Machine.pending?] at hpend

include hpost in
lemma good_event {t : Thread} {e : S.Ev} (hrun : c.running = none)
    (hok : L.permits c (.event t e)) (h : L.Good post c)
    (hstep : M.event c t e = some d) : L.Good post d := by
  obtain ⟨Γ, htrack, hgood⟩ := h
  rw [hrun] at hgood
  obtain ⟨hinv, hfresh, hmain, hkids⟩ := hgood
  cases t with
  | main =>
    rw [Machine.event] at hstep
    obtain ⟨⟨op, next⟩, hpend, hstep⟩ := bind_eq_some_iff.1 hstep
    obtain ⟨s', hfire, rfl⟩ := map_eq_some_iff.1 hstep
    cases hp : c.main with
    | call op' next' =>
      rw [hp] at hpend
      simp only [Machine.pending?, some.injEq, Prod.mk.injEq] at hpend
      obtain ⟨rfl, rfl⟩ := hpend
      rw [hp] at hmain
      obtain ⟨P, hst, hP, hev, hans⟩ := hmain
      obtain ⟨hg, hinv', hP'⟩ := hev e c.state s' hP hinv
        (hok op' (by simp [pendingOp?, hp, Machine.pending?])) hfire
      refine ⟨Γ, ⟨htrack.next, htrack.waiting, htrack.delivered⟩, ?_⟩
      simp only [hrun]
      refine ⟨hinv', hfresh, ?_, ?_⟩
      · exact ⟨P, hst, hP', hev, hans⟩
      intro i kid hkid
      exact KidRest.stable L hlaws .main c.state s' (by simp [Rivals]) hinv hinv' hg (hkids i kid hkid)
    | _ => rw [hp] at hpend; simp [Machine.pending?] at hpend
  | kid j =>
    rw [Machine.event] at hstep
    obtain ⟨kid, hkid, hstep⟩ := bind_eq_some_iff.1 hstep
    obtain ⟨⟨op, next⟩, hpend, hstep⟩ := bind_eq_some_iff.1 hstep
    simp only at hstep
    obtain ⟨hstarted, hstep⟩ : kid.started = true ∧
        (M.fire op e c.state).map (fun s => { c with state := s }) = some d := by
      split at hstep
      · exact ⟨‹_›, hstep⟩
      cases hstep
    obtain ⟨s', hfire, rfl⟩ := map_eq_some_iff.1 hstep
    cases hp : kid.prog with
    | call op' next' =>
      have hpend' := hpend
      rw [hp] at hpend
      simp only [Machine.pending?, some.injEq, Prod.mk.injEq] at hpend
      obtain ⟨rfl, rfl⟩ := hpend
      rcases hkids j kid hkid with ⟨hns, _⟩ | ⟨_, hrest⟩
      · rw [hns] at hstarted
        cases hstarted
      rw [hp] at hrest
      obtain ⟨P, hst, hP, hev, hans⟩ := hrest
      obtain ⟨hg, hinv', hP'⟩ := hev e c.state s' hP hinv
        (hok op' (by simp [pendingOp?, hkid, hpend'])) hfire
      refine ⟨Γ, ⟨htrack.next, htrack.waiting, htrack.delivered⟩, ?_⟩
      simp only [hrun]
      refine ⟨hinv', hfresh, ?_, ?_⟩
      · have hundel := htrack.undelivered hkid (.inr (by rw [hp]; rfl))
        have hwait : (j, kid.arg) ∈ Γ.waiting :=
          (htrack.waiting j kid.arg).2 ⟨kid, hkid, rfl, hundel⟩
        exact Rest.stable L (L.mainQ_stable hpost hfresh) (.kid j) c.state s'
          ⟨j, kid.arg, rfl, hwait⟩ hinv hinv' hg hmain
      intro i kid' hkid'
      by_cases hij : i = j
      · subst hij
        rw [hkid] at hkid'
        obtain rfl := some.inj hkid'
        refine .inr ⟨hstarted, ?_⟩
        rw [hp]
        exact ⟨P, hst, hP', hev, hans⟩
      exact KidRest.stable L hlaws (.kid j) c.state s'
        (by simpa [Rivals] using fun h => hij h.symm) hinv hinv' hg (hkids i kid' hkid')
    | _ => rw [hp] at hpend; simp [Machine.pending?] at hpend

lemma good_start {j : Nat} (hrun : c.running = none) (h : L.Good post c)
    (hstep : Machine.start c j = some d) : L.Good post d := by
  obtain ⟨Γ, htrack, hgood⟩ := h
  rw [hrun] at hgood
  obtain ⟨hinv, hfresh, hmain, hkids⟩ := hgood
  rw [Machine.start] at hstep
  obtain ⟨kid, hkid, hstep⟩ := bind_eq_some_iff.1 hstep
  split at hstep
  · cases hstep
  rename_i hns
  obtain rfl := some.inj hstep
  have hlt : j < c.kids.length := (List.getElem?_eq_some_iff.1 hkid).1
  rcases hkids j kid hkid with ⟨_, hprog, hpre⟩ | ⟨hs, _⟩
  · have hundel := htrack.undelivered hkid (.inl (by simpa using hns))
    refine ⟨Γ, htrack.set hkid (by rfl) (by exact hundel) hundel _ rfl, c.state, hinv,
      hlaws.guar_refl _ _, hfresh, hmain,
      ⟨{ kid with started := true }, by simp [hlt], rfl, hundel, ?_⟩, ?_⟩
    · show L.wp (.kid j) kid.prog (L.kidQ j kid.arg) (Ctx.empty S) c.state
      rw [hprog]
      exact hlaws.kid_wp j kid.arg c.state hinv hpre
    intro i kid' hij hkid'
    rw [getElem?_set_ne (Ne.symm hij)] at hkid'
    exact hkids i kid' hkid'
  exact absurd hs hns

lemma good_deliver {j : Nat} (hrun : c.running = none) (h : L.Good post c)
    (hstep : Machine.deliver c j = some d) : L.Good post d := by
  obtain ⟨Γ, htrack, hgood⟩ := h
  rw [hrun] at hgood
  obtain ⟨hinv, _, hmain, hkids⟩ := hgood
  unfold Machine.deliver at hstep
  cases hp : c.main with
  | join first count next =>
    rw [hp] at hstep hmain
    simp only at hstep
    obtain ⟨kid, hkid, hstep⟩ := bind_eq_some_iff.1 hstep
    obtain ⟨out, hout, hstep⟩ := bind_eq_some_iff.1 hstep
    split at hstep
    · rename_i hcond
      simp only [Bool.and_eq_true, Bool.not_eq_true', decide_eq_true_eq] at hcond
      obtain ⟨⟨hstarted, hundel⟩, hlo, hhi⟩ := hcond
      obtain rfl := some.inj hstep
      have hlt : j < c.kids.length := (List.getElem?_eq_some_iff.1 hkid).1
      obtain ⟨_, _, hP, hresult, _⟩ := hmain
      have hwait : (j, kid.arg) ∈ Γ.waiting := (htrack.waiting j kid.arg).2 ⟨kid, hkid, rfl, hundel⟩
      have hkidpost : L.kidPost j kid.arg out c.state := by
        rcases hkids j kid hkid with ⟨hns, _⟩ | ⟨_, hrest⟩
        · rw [hns] at hstarted
          cases hstarted
        cases hkp : kid.prog with
        | ret =>
          rw [hkp] at hout hrest
          obtain rfl := some.inj hout
          exact hrest.2
        | raise =>
          rw [hkp] at hout hrest
          obtain rfl := some.inj hout
          exact hrest.2
        | _ => rw [hkp] at hout; simp [Prog.result?] at hout
      refine ⟨Γ.deliver j, ⟨?_, ?_, ?_⟩, c.state, hinv, hlaws.guar_refl _ _,
        hresult j kid.arg out c.state hwait hlo hhi hP hinv hkidpost, ?_⟩
      · simp [Ctx.deliver, htrack.next]
      · intro i a
        simp only [Ctx.deliver, mem_filter, decide_eq_true_eq, htrack.waiting]
        by_cases hij : i = j
        · subst hij
          simp [hlt]
        simp [hij, Ne.symm hij]
      · intro i kid' hkid' hdel
        by_cases hij : i = j
        · subst hij
          simp only [getElem?_set, hlt, if_true, some.injEq] at hkid'
          subst hkid'
          exact ⟨hstarted, by rw [hout]; rfl⟩
        rw [getElem?_set_ne (Ne.symm hij)] at hkid'
        exact htrack.delivered i kid' hkid' hdel
      intro i kid' hkid'
      refine .inl ?_
      by_cases hij : i = j
      · subst hij
        simp only [getElem?_set, hlt, if_true, some.injEq] at hkid'
        subst hkid'
        exact hkids i kid hkid
      simp only [getElem?_set_ne (Ne.symm hij)] at hkid'
      exact hkids i kid' hkid'
    cases hstep
  | _ => rw [hp] at hstep; simp at hstep

omit hlaws in
lemma good_cancelJoin (hrun : c.running = none) (hok : L.permits c .cancelJoin)
    (h : L.Good post c) (hstep : M.cancelJoin c = some d) : L.Good post d := by
  obtain ⟨Γ, htrack, hgood⟩ := h
  rw [hrun] at hgood
  obtain ⟨hinv, _, hmain, hkids⟩ := hgood
  have hsettle : Γ.settle = Γ := by cases Γ; simp_all [Ctx.settle]
  unfold cancelJoin at hstep
  cases hp : c.main with
  | join first count next =>
    rw [hp] at hstep hmain
    obtain rfl := some.inj hstep
    obtain ⟨_, _, hP, _, hcancel⟩ := hmain
    obtain ⟨hguar, hwp⟩ := hcancel c.state hP hinv hok
    refine ⟨Γ, ⟨htrack.next, htrack.waiting, htrack.delivered⟩, c.state, hinv, hguar, ?_,
      fun i kid hkid => .inl (hkids i kid hkid)⟩
    rw [← hsettle]
    exact hwp
  | _ => rw [hp] at hstep; simp at hstep

include hpost in
lemma good_step {m : Move S} (hok : L.permits c m) (h : L.Good post c)
    (hstep : M.step c m = some d) : L.Good post d := by
  cases m with
  | tick =>
    cases hrun : c.running with
    | none => simp [Machine.step, Machine.tick, hrun] at hstep
    | some t =>
      cases t with
      | main => exact L.good_tick_main hlaws hrun h hstep
      | kid => exact L.good_tick_kid hlaws hpost hrun h hstep
  | answer =>
    by_cases hrun : c.running = none
    · exact L.good_answer hrun hok h (by simpa [Machine.step, hrun] using hstep)
    simp [Machine.step, hrun] at hstep
  | event =>
    by_cases hrun : c.running = none
    · exact L.good_event hlaws hpost hrun hok h (by simpa [Machine.step, hrun] using hstep)
    simp [Machine.step, hrun] at hstep
  | start =>
    by_cases hrun : c.running = none
    · exact L.good_start hlaws hrun h (by simpa [Machine.step, hrun] using hstep)
    simp [Machine.step, hrun] at hstep
  | deliver =>
    by_cases hrun : c.running = none
    · exact L.good_deliver hlaws hrun h (by simpa [Machine.step, hrun] using hstep)
    simp [Machine.step, hrun] at hstep
  | cancelJoin =>
    by_cases hrun : c.running = none
    · exact L.good_cancelJoin hrun hok h (by simpa [Machine.step, hrun] using hstep)
    simp [Machine.step, hrun] at hstep

include hpost in
lemma sound {s : S.State} {p : Prog S α} (hinv : L.inv s)
    (hwp : L.wp .main p (L.mainQ post) (Ctx.empty S) s)
    (hreach : M.Reachable L.permits (Machine.initial s p) c) : L.Good post c := by
  induction hreach with
  | refl =>
    exact ⟨Ctx.empty S, ⟨rfl, by simp [Ctx.empty, Machine.initial], by simp [Machine.initial]⟩,
      s, hinv,
      hlaws.guar_refl _ _, hwp, by simp [Machine.initial]⟩
  | step _ hm hstep ih => exact L.good_step hlaws hpost hm ih hstep

end

/-! ## What a run gives -/

section
variable {α : Type} {post : List (Nat × S.Arg) → Except S.Exn α → S.State → Prop}
  {c : Config S α}

lemma Good.inv (h : L.Good post c) (hrun : c.running = none) : L.inv c.state := by
  obtain ⟨Γ, _, hgood⟩ := h
  rw [hrun] at hgood
  exact hgood.1

lemma Good.finished (h : L.Good post c) (hrun : c.running = none) {r : Except S.Exn α}
    (hr : c.main.result? = some r) : L.inv c.state ∧ ∃ w, post w r c.state ∧
      ∀ i kid, c.kids[i]? = some kid → kid.delivered = false → (i, kid.arg) ∈ w := by
  obtain ⟨Γ, htrack, hgood⟩ := h
  rw [hrun] at hgood
  obtain ⟨hinv, _, hmain, _⟩ := hgood
  refine ⟨hinv, Γ.waiting, ?_, fun i kid hkid hdel =>
    (htrack.waiting i kid.arg).2 ⟨kid, hkid, rfl, hdel⟩⟩
  cases hp : c.main with
  | ret =>
    rw [hp] at hr hmain
    obtain rfl := some.inj hr
    exact hmain.2
  | raise =>
    rw [hp] at hr hmain
    obtain rfl := some.inj hr
    exact hmain.2
  | _ => rw [hp] at hr; simp [Prog.result?] at hr

lemma Good.children_finished (h : L.Good post c) (hrun : c.running = none)
    {r : Except S.Exn α} (hr : c.main.result? = some r)
    (hpost : ∀ w s, post w r s → w = []) (i : Nat) (kid : Kid S) (hkid : c.kids[i]? = some kid) :
    kid.started = true ∧ kid.prog.result?.isSome := by
  obtain ⟨_, w, hw, hwait⟩ := h.finished L hrun hr
  obtain ⟨Γ, htrack, _⟩ := h
  obtain rfl := hpost w c.state hw
  cases hdel : kid.delivered with
  | true => exact htrack.delivered i kid hkid hdel
  | false => exact absurd (hwait i kid hkid hdel) (by simp)

end
end Logic
end DeterminFlow.Library.Coop
