/-
  Library.BinaryHeap
  **A BINARY HEAP IN A LIST**, pushed and popped the way `heapq` does it: an
  item that is popped leaves a hole which sinks to a leaf along the smaller
  children, the right one of two equal ones; the last item fills it and rises
  past what it is smaller than.
-/
import Mathlib.Data.List.Perm.Basic

namespace DeterminFlow.Library.BinaryHeap

open List Option

/-! ## Pushing and popping -/

section
variable {α : Type} (lt : α → α → Bool)

def parent (i : Nat) : Nat := (i - 1) / 2

def rise (item : α) : (fuel : Nat) → List α → Nat → List α
  | 0, heap, hole => heap.set hole item
  | fuel + 1, heap, hole =>
    if hole = 0 then heap.set hole item
    else
      match heap[parent hole]? with
      | none => heap.set hole item
      | some above =>
        if lt item above then rise item fuel (heap.set hole above) (parent hole)
        else heap.set hole item

/-- The smaller child of a position with its item; of two that are not
smaller than one another the right one. -/
def smallerChild (heap : List α) (i : Nat) : Option (Nat × α) :=
  match heap[2 * i + 1]?, heap[2 * i + 2]? with
  | none, _ => none
  | some left, none => some (2 * i + 1, left)
  | some left, some right =>
    if lt left right then some (2 * i + 1, left) else some (2 * i + 2, right)

def sink : (fuel : Nat) → List α → Nat → List α × Nat
  | 0, heap, hole => (heap, hole)
  | fuel + 1, heap, hole =>
    match smallerChild lt heap hole with
    | none => (heap, hole)
    | some (child, item) => sink fuel (heap.set hole item) child

/-- `heappush`. -/
def push (heap : List α) (item : α) : List α :=
  rise lt item heap.length (heap ++ [item]) heap.length

def sunk (last : α) (rest : List α) : List α × Nat := sink lt (rest.length + 1) (last :: rest) 0

/-- `heappop`: the root and what is left. -/
def pop (heap : List α) : Option (α × List α) :=
  match heap.getLast? with
  | none => none
  | some last =>
    match heap.dropLast with
    | [] => some (last, [])
    | root :: rest =>
      let hollow := sunk lt last rest
      some (root, rise lt last hollow.2 hollow.1 hollow.2)

/-! ## Positions -/

variable {i hole fuel child j : Nat} {heap : List α} {item x root c p : α}

lemma parent_lt (h : 0 < i) : parent i < i := by
  unfold parent
  omega

lemma parent_eq_iff {c : Nat} (hc : 0 < c) : parent c = i ↔ c = 2 * i + 1 ∨ c = 2 * i + 2 := by
  unfold parent
  omega

/-! ## The order -/

/-- `lt` is a strict weak order. -/
structure WeakOrder : Prop where
  asymm : ∀ a b, lt a b = true → lt b a = false
  trans : ∀ a b c, lt b a = false → lt c b = false → lt c a = false

def Ordered (heap : List α) : Prop :=
  ∀ i x p, 0 < i → heap[i]? = some x → heap[parent i]? = some p → lt x p = false

/-- The same for what does not touch the hole, and for what is below the hole
against what is above it. -/
structure OrderedBut (heap : List α) (hole : Nat) : Prop where
  except : ∀ i x p, 0 < i → i ≠ hole → parent i ≠ hole → heap[i]? = some x →
    heap[parent i]? = some p → lt x p = false
  across : 0 < hole → ∀ c x p, 0 < c → parent c = hole → heap[c]? = some x →
    heap[parent hole]? = some p → lt x p = false

def Below (heap : List α) (hole : Nat) (item : α) : Prop :=
  ∀ c x, 0 < c → parent c = hole → heap[c]? = some x → lt x item = false

variable {lt}

lemma OrderedBut.fill (h : OrderedBut lt heap hole) (hbelow : Below lt heap hole item)
    (habove : 0 < hole → ∀ p, heap[parent hole]? = some p → lt item p = false) :
    Ordered lt (heap.set hole item) := by
  intro i x p hi hx hp
  rcases eq_or_ne hole i with rfl | hne
  · have hlt := (List.getElem?_eq_some_iff.1 hx).1
    rw [length_set] at hlt
    rw [getElem?_set_self hlt, some.injEq] at hx
    have := parent_lt hi
    rw [getElem?_set_ne (by omega)] at hp
    exact hx ▸ habove hi p hp
  rw [getElem?_set_ne hne] at hx
  rcases eq_or_ne hole (parent i) with heq | hparent
  · have hlt := (List.getElem?_eq_some_iff.1 hp).1
    rw [length_set] at hlt
    rw [← heq] at hp hlt
    rw [getElem?_set_self hlt, some.injEq] at hp
    exact hp ▸ hbelow i x hi heq.symm hx
  rw [getElem?_set_ne hparent] at hp
  exact h.except i x p hi hne.symm hparent.symm hx hp

lemma OrderedBut.up {above : α} (h : OrderedBut lt heap hole) (hw : WeakOrder lt)
    (hpos : 0 < hole) (hlt : hole < heap.length) (habove : heap[parent hole]? = some above)
    (hrise : lt item above = true) : OrderedBut lt (heap.set hole above) (parent hole) ∧
      Below lt (heap.set hole above) (parent hole) item := by
  have hup := parent_lt hpos
  refine ⟨⟨?_, ?_⟩, ?_⟩
  · intro i x p hi _ hparent hx hp
    rcases eq_or_ne hole i with rfl | hi'
    · exact absurd rfl hparent
    rw [getElem?_set_ne hi'] at hx
    rcases eq_or_ne hole (parent i) with heq | hp'
    · rw [← heq, getElem?_set_self hlt, some.injEq] at hp
      exact hp ▸ h.across hpos i x above hi heq.symm hx habove
    rw [getElem?_set_ne hp'] at hp
    exact h.except i x p hi hi'.symm hp'.symm hx hp
  · intro hpos' c x p hc hparent hx hp
    have hup' := parent_lt hpos'
    rw [getElem?_set_ne (by omega)] at hp
    have hgrand : lt above p = false :=
      h.except (parent hole) above p hpos' (by omega) (by omega) habove hp
    rcases eq_or_ne hole c with rfl | hc'
    · rw [getElem?_set_self hlt, some.injEq] at hx
      exact hx ▸ hgrand
    rw [getElem?_set_ne hc'] at hx
    refine hw.trans p above x hgrand (h.except c x above hc hc'.symm (by omega) hx ?_)
    rw [hparent]
    exact habove
  intro c x hc hparent hx
  have hsmaller : lt above item = false := hw.asymm _ _ hrise
  rcases eq_or_ne hole c with rfl | hc'
  · rw [getElem?_set_self hlt, some.injEq] at hx
    exact hx ▸ hsmaller
  rw [getElem?_set_ne hc'] at hx
  refine hw.trans item above x hsmaller (h.except c x above hc hc'.symm (by omega) hx ?_)
  rw [hparent]
  exact habove

lemma ordered_rise (hw : WeakOrder lt) (h : OrderedBut lt heap hole)
    (hbelow : Below lt heap hole item) (hlt : hole < heap.length) (hfuel : hole ≤ fuel) :
    Ordered lt (rise lt item fuel heap hole) := by
  induction fuel generalizing heap hole with
  | zero =>
    obtain rfl : hole = 0 := by omega
    exact h.fill hbelow (fun hpos => absurd hpos (Nat.lt_irrefl 0))
  | succ fuel ih =>
    unfold rise
    split
    · rename_i hzero
      exact h.fill hbelow (fun hpos => absurd hzero (by omega))
    rename_i hpos
    have hup := parent_lt (Nat.pos_of_ne_zero hpos)
    split
    · rename_i hnone
      have := getElem?_eq_none_iff.1 hnone
      omega
    rename_i above habove
    split
    · rename_i hrise
      obtain ⟨hbut, hbelow'⟩ :=
        h.up hw (Nat.pos_of_ne_zero hpos) hlt habove hrise
      exact ih hbut hbelow' (by rw [length_set]; omega) (by omega)
    rename_i hstop
    refine h.fill hbelow (fun _ p hp => ?_)
    obtain rfl := some.inj (habove.symm.trans hp)
    simpa using hstop

lemma smallerChild_spec (hw : WeakOrder lt) (h : smallerChild lt heap i = some (child, item)) :
    0 < child ∧ parent child = i ∧ heap[child]? = some item ∧
      ∀ c x, 0 < c → parent c = i → heap[c]? = some x → lt x item = false := by
  have hirrefl : ∀ a, lt a a = false := by
    intro a
    by_contra hne
    have htrue : lt a a = true := by simpa using hne
    exact hne (hw.asymm a a htrue)
  unfold smallerChild at h
  split at h
  · cases h
  · rename_i left hleft hright
    obtain ⟨rfl, rfl⟩ := Prod.mk.inj (some.inj h)
    refine ⟨by omega, by unfold parent; omega, hleft, fun c x hc hparent hx => ?_⟩
    rcases (parent_eq_iff hc).1 hparent with rfl | rfl
    · obtain rfl := some.inj (hleft.symm.trans hx)
      exact hirrefl _
    exact nomatch hright.symm.trans hx
  rename_i left right hleft hright
  split at h
  · rename_i hlt
    obtain ⟨rfl, rfl⟩ := Prod.mk.inj (some.inj h)
    refine ⟨by omega, by unfold parent; omega, hleft, fun c x hc hparent hx => ?_⟩
    rcases (parent_eq_iff hc).1 hparent with rfl | rfl
    · obtain rfl := some.inj (hleft.symm.trans hx)
      exact hirrefl _
    obtain rfl := some.inj (hright.symm.trans hx)
    exact hw.asymm _ _ hlt
  rename_i hnot
  obtain ⟨rfl, rfl⟩ := Prod.mk.inj (some.inj h)
  refine ⟨by omega, by unfold parent; omega, hright, fun c x hc hparent hx => ?_⟩
  rcases (parent_eq_iff hc).1 hparent with rfl | rfl
  · obtain rfl := some.inj (hleft.symm.trans hx)
    simpa using hnot
  obtain rfl := some.inj (hright.symm.trans hx)
  exact hirrefl _

lemma smallerChild_eq_none (h : smallerChild lt heap i = none) : heap.length ≤ 2 * i + 1 := by
  unfold smallerChild at h
  split at h
  · rename_i hnone
    exact getElem?_eq_none_iff.1 hnone
  · cases h
  split at h <;> cases h

lemma OrderedBut.down (h : OrderedBut lt heap hole) (hw : WeakOrder lt)
    (hchild : smallerChild lt heap hole = some (child, item)) (hlt : hole < heap.length) :
    OrderedBut lt (heap.set hole item) child := by
  obtain ⟨hpos, hparent, hitem, hsmallest⟩ := smallerChild_spec hw hchild
  have hup := parent_lt hpos
  refine ⟨?_, ?_⟩
  · intro i x p hi _ hparent' hx hp
    rcases eq_or_ne hole i with rfl | hi'
    · rw [getElem?_set_self hlt, some.injEq] at hx
      have := parent_lt hi
      rw [getElem?_set_ne (by omega)] at hp
      exact hx ▸ h.across hi child item p hpos hparent hitem hp
    rw [getElem?_set_ne hi'] at hx
    rcases eq_or_ne hole (parent i) with heq | hp'
    · rw [← heq, getElem?_set_self hlt, some.injEq] at hp
      exact hp ▸ hsmallest i x hi heq.symm hx
    rw [getElem?_set_ne hp'] at hp
    exact h.except i x p hi hi'.symm hp'.symm hx hp
  intro _ c x p hc hparent' hx hp
  have hdown := parent_lt hc
  rw [hparent, getElem?_set_self hlt, some.injEq] at hp
  rw [getElem?_set_ne (by omega)] at hx
  refine hp ▸ h.except c x item hc (by omega) (by omega) hx ?_
  rw [hparent']
  exact hitem

lemma sink_leaf (hw : WeakOrder lt) (hlt : hole < heap.length)
    (hfuel : heap.length ≤ hole + fuel) : (sink lt fuel heap hole).1.length = heap.length ∧
      (sink lt fuel heap hole).2 < heap.length ∧
      heap.length ≤ 2 * (sink lt fuel heap hole).2 + 1 := by
  induction fuel generalizing heap hole with
  | zero => omega
  | succ fuel ih =>
    unfold sink
    split
    · rename_i hleaf
      exact ⟨rfl, hlt, smallerChild_eq_none hleaf⟩
    rename_i child item hchild
    obtain ⟨hpos, _, hitem, -⟩ := smallerChild_spec hw hchild
    have hlt' := (List.getElem?_eq_some_iff.1 hitem).1
    have hdown := parent_lt hpos
    have hlen : (heap.set hole item).length = heap.length := length_set
    have hchildlt : child < (heap.set hole item).length := by omega
    have hrest := ih hchildlt (by omega)
    rw [hlen] at hrest
    exact hrest

lemma sunk_leaf (hw : WeakOrder lt) (last : α) (rest : List α) :
    (sunk lt last rest).1.length = rest.length + 1 ∧
      (sunk lt last rest).2 < rest.length + 1 ∧
      rest.length + 1 ≤ 2 * (sunk lt last rest).2 + 1 :=
  sink_leaf hw (Nat.succ_pos rest.length) (Nat.le_of_eq (Nat.zero_add _).symm)

lemma OrderedBut.sink (hw : WeakOrder lt) {fuel : Nat} {heap : List α} {hole : Nat}
    (h : OrderedBut lt heap hole) (hlt : hole < heap.length) :
    OrderedBut lt (sink lt fuel heap hole).1 (sink lt fuel heap hole).2 := by
  induction fuel generalizing heap hole with
  | zero => exact h
  | succ fuel ih =>
    unfold BinaryHeap.sink
    split
    · exact h
    rename_i child item hchild
    obtain ⟨-, -, hitem, -⟩ := smallerChild_spec hw hchild
    have hlt' := (List.getElem?_eq_some_iff.1 hitem).1
    exact ih (h.down hw hchild hlt) (by rw [length_set]; exact hlt')

lemma ordered_push (hw : WeakOrder lt) (h : Ordered lt heap) (item : α) :
    Ordered lt (push lt heap item) := by
  unfold push
  refine ordered_rise hw ⟨?_, ?_⟩ ?_ (by simp) (Nat.le_refl _)
  · intro i x p hi _ _ hx hp
    have hlt := (List.getElem?_eq_some_iff.1 hx).1
    rw [length_append, length_singleton] at hlt
    have hup := parent_lt hi
    rw [getElem?_append_left (by omega)] at hx hp
    exact h i x p hi hx hp
  · intro _ c x p hc hparent hx
    have hlt := (List.getElem?_eq_some_iff.1 hx).1
    have := parent_lt hc
    rw [length_append, length_singleton] at hlt
    omega
  intro c x hc hparent hx
  have hlt := (List.getElem?_eq_some_iff.1 hx).1
  have := parent_lt hc
  rw [length_append, length_singleton] at hlt
  omega

/-! ## The items -/

lemma set_set_perm' (hi : i < heap.length) (hj : heap[j]? = some x) (hne : i ≠ j) :
    ((heap.set i x).set j item).Perm (heap.set i item) := by
  obtain ⟨_, rfl⟩ := List.getElem?_eq_some_iff.1 hj
  have hi' : i < (heap.set i item).length := by rwa [length_set]
  have hj' : j < (heap.set i item).length := by rwa [length_set]
  have hperm := set_set_perm hi' hj'
  rw [getElem_set_ne hne, getElem_set_self, set_set] at hperm
  exact hperm

lemma rise_perm (hlt : hole < heap.length) :
    (rise lt item fuel heap hole).Perm (heap.set hole item) := by
  induction fuel generalizing heap hole with
  | zero => exact .refl _
  | succ fuel ih =>
    unfold rise
    split
    · exact .refl _
    rename_i hpos
    have hup := parent_lt (Nat.pos_of_ne_zero hpos)
    split
    · exact .refl _
    rename_i above habove
    split
    · refine (ih (by rw [length_set]; omega)).trans ?_
      exact set_set_perm' hlt habove (by omega)
    exact .refl _

lemma sink_perm (hw : WeakOrder lt) (hlt : hole < heap.length) :
    ((sink lt fuel heap hole).1.set (sink lt fuel heap hole).2 item).Perm
      (heap.set hole item) := by
  induction fuel generalizing heap hole with
  | zero => exact .refl _
  | succ fuel ih =>
    unfold sink
    split
    · exact .refl _
    rename_i child x hchild
    obtain ⟨hpos, _, hitem, -⟩ := smallerChild_spec hw hchild
    have hlt' := (List.getElem?_eq_some_iff.1 hitem).1
    have hdown := parent_lt hpos
    refine (ih (by rw [length_set]; exact hlt')).trans ?_
    exact set_set_perm' hlt hitem (by omega)

lemma push_perm (heap : List α) (item : α) : (push lt heap item).Perm (heap ++ [item]) := by
  unfold push
  have hperm : (rise lt item heap.length (heap ++ [item]) heap.length).Perm
      ((heap ++ [item]).set heap.length item) := rise_perm (by simp)
  rw [set_append_right _ _ (Nat.le_refl _)] at hperm
  simpa using hperm

lemma pop_eq_some {rest : List α} (h : pop lt heap = some (root, rest)) :
    heap = [root] ∧ rest = [] ∨
      ∃ middle last, heap = root :: middle ++ [last] ∧
        rest = rise lt last (sunk lt last middle).2 (sunk lt last middle).1
          (sunk lt last middle).2 := by
  unfold pop at h
  split at h
  · cases h
  rename_i last hlast
  obtain ⟨front, rfl⟩ := getLast?_eq_some_iff.1 hlast
  rw [dropLast_concat] at h
  cases front with
  | nil =>
    obtain ⟨rfl, rfl⟩ := Prod.mk.inj (some.inj h)
    exact .inl ⟨rfl, rfl⟩
  | cons first middle =>
    obtain ⟨rfl, rfl⟩ := Prod.mk.inj (some.inj h)
    exact .inr ⟨middle, last, rfl, rfl⟩

lemma exists_pop (hroot : heap[0]? = some root) : ∃ rest, pop lt heap = some (root, rest) := by
  have hne : heap ≠ [] := by
    rintro rfl
    cases hroot
  obtain ⟨front, last, rfl⟩ : ∃ front last, heap = front ++ [last] :=
    ⟨_, _, (dropLast_append_getLast hne).symm⟩
  have hdrop : (front ++ [last]).dropLast = front := dropLast_concat
  have hlast : (front ++ [last]).getLast? = some last := getLast?_concat
  unfold pop
  rw [hlast, hdrop]
  cases front with
  | nil =>
    obtain rfl := some.inj hroot
    exact ⟨[], rfl⟩
  | cons =>
    obtain rfl := some.inj hroot
    exact ⟨_, rfl⟩

lemma pop_perm (hw : WeakOrder lt) {rest : List α} (h : pop lt heap = some (root, rest)) :
    heap.Perm (root :: rest) := by
  rcases pop_eq_some h with ⟨rfl, rfl⟩ | ⟨middle, last, rfl, rfl⟩
  · exact .refl _
  rw [cons_append]
  refine List.Perm.cons root ?_
  have hsunk : ((sunk lt last middle).1.set (sunk lt last middle).2 last).Perm
      (last :: middle) := sink_perm hw (Nat.succ_pos _)
  refine (perm_append_singleton last middle).trans ?_
  have hleaf := sunk_leaf hw last middle
  exact ((rise_perm (by rw [hleaf.1]; exact hleaf.2.1)).trans hsunk).symm

lemma ordered_pop (hw : WeakOrder lt) {rest : List α} (h : Ordered lt heap)
    (hpop : pop lt heap = some (root, rest)) : Ordered lt rest := by
  rcases pop_eq_some hpop with ⟨rfl, rfl⟩ | ⟨middle, last, rfl, rfl⟩
  · intro i x p _ hx
    cases hx
  have hleaf := sunk_leaf hw last middle
  have hbut : OrderedBut lt (last :: middle) 0 := by
    refine ⟨?_, fun hpos => absurd hpos (Nat.lt_irrefl 0)⟩
    intro i x p hi _ hparent hx hp
    have hlt := (List.getElem?_eq_some_iff.1 hx).1
    rw [length_cons] at hlt
    -- below the root the two lists are the same
    have hsame : ∀ k, 0 < k → k < middle.length + 1 →
        (root :: middle ++ [last])[k]? = (last :: middle)[k]? := by
      intro k hk _
      obtain ⟨k, rfl⟩ := Nat.exists_eq_succ_of_ne_zero (Nat.pos_iff_ne_zero.1 hk)
      rw [cons_append, getElem?_cons_succ, getElem?_cons_succ, getElem?_append_left (by omega)]
    have hup := parent_lt hi
    refine h i x p hi ?_ ?_
    · rw [hsame i hi hlt]
      exact hx
    rw [hsame (parent i) (Nat.pos_of_ne_zero hparent) (by omega)]
    exact hp
  refine ordered_rise hw (hbut.sink hw (Nat.succ_pos _)) ?_ (by rw [hleaf.1]; exact hleaf.2.1)
    (Nat.le_refl _)
  -- nothing is below a leaf
  intro _ x hc hparent hx
  have hlt := (List.getElem?_eq_some_iff.1 hx).1
  rw [hleaf.1] at hlt
  rcases (parent_eq_iff hc).1 hparent with heq | heq <;> omega

lemma root_le (hw : WeakOrder lt) (h : Ordered lt heap) (hroot : heap[0]? = some root)
    (hx : heap[i]? = some x) : lt x root = false := by
  induction i using Nat.strongRecOn generalizing x with
  | ind i ih =>
    rcases Nat.eq_zero_or_pos i with rfl | hi
    · obtain rfl := some.inj (hroot.symm.trans hx)
      by_contra hne
      have htrue : lt root root = true := by simpa using hne
      exact hne (hw.asymm root root htrue)
    have hup := parent_lt hi
    have hlt := (List.getElem?_eq_some_iff.1 hx).1
    have hp : heap[parent i]? = some heap[parent i] := getElem?_eq_getElem (by omega)
    exact hw.trans root _ x (ih (parent i) hup hp) (h i x _ hi hx hp)

/-! ## What stays above what -/

/-- The position `j` is on the way from `i` to the root. -/
inductive Above (j : Nat) : Nat → Prop where
  | next {i : Nat} (hi : 0 < i) (h : parent i = j) : Above j i
  | up {i : Nat} (hi : 0 < i) (h : Above j (parent i)) : Above j i

lemma Above.cases {j i : Nat} (h : Above j i) : 0 < i ∧ (parent i = j ∨ Above j (parent i)) := by
  cases h with
  | next hi h => exact ⟨hi, .inl h⟩
  | up hi h => exact ⟨hi, .inr h⟩

lemma Above.higher (h : Above j i) (hj : 0 < j) : Above (parent j) i := by
  induction h with
  | next hi h => exact .up hi (.next (h ▸ hj) (congrArg _ h))
  | up hi _ ih => exact .up hi ih

lemma sink_above (hw : WeakOrder lt) (hlt : hole < heap.length) (habove : Above j i)
    (hp : heap[j]? = some p) (hc : heap[i]? = some c) (hj : j ≠ hole) (hi : i ≠ hole) :
    ∃ j' i', Above j' i' ∧ (sink lt fuel heap hole).1[j']? = some p ∧
      (sink lt fuel heap hole).1[i']? = some c ∧ j' ≠ (sink lt fuel heap hole).2 ∧
      i' ≠ (sink lt fuel heap hole).2 := by
  induction fuel generalizing heap hole j i with
  | zero => exact ⟨j, i, habove, hp, hc, hj, hi⟩
  | succ fuel ih =>
    unfold sink
    split
    · exact ⟨j, i, habove, hp, hc, hj, hi⟩
    rename_i child item hchild
    obtain ⟨hpos, hparent, hitem, -⟩ := smallerChild_spec hw hchild
    have hdown := parent_lt hpos
    have hlt' : child < (heap.set hole item).length := by
      rw [length_set]
      exact (List.getElem?_eq_some_iff.1 hitem).1
    have hself : (heap.set hole item)[hole]? = some item := getElem?_set_self hlt
    rcases eq_or_ne j child with rfl | hj'
    · -- the upper item comes up to the hole
      obtain rfl := some.inj (hp.symm.trans hitem)
      have hne : i ≠ j := by
        rintro rfl
        have hbelow : ∀ k, Above i k → i < k := by
          intro k hk
          induction hk with
          | next hk h => exact h ▸ parent_lt hk
          | up hk _ ih => exact Nat.lt_trans ih (parent_lt hk)
        exact absurd (hbelow i habove) (Nat.lt_irrefl i)
      refine ih hlt' (hparent ▸ habove.higher hpos) hself ?_ (by omega) hne
      rw [getElem?_set_ne (Ne.symm hi)]
      exact hc
    have hp' : (heap.set hole item)[j]? = some p := by
      rw [getElem?_set_ne (Ne.symm hj)]
      exact hp
    rcases eq_or_ne i child with rfl | hi'
    · -- the lower item comes up, and the upper one is above the hole
      obtain rfl := some.inj (hc.symm.trans hitem)
      obtain ⟨-, hnext | hnext⟩ := habove.cases
      · exact absurd (hnext.symm.trans hparent) hj
      exact ih hlt' (hparent ▸ hnext) hp' hself hj' (by omega)
    refine ih hlt' habove hp' ?_ hj' hi'
    rw [getElem?_set_ne (Ne.symm hi)]
    exact hc

lemma rise_stays (hlargest : ∀ x ∈ heap, lt item x = false) :
    rise lt item fuel heap hole = heap.set hole item := by
  cases fuel with
  | zero => rfl
  | succ fuel =>
    unfold rise
    split
    · rfl
    split
    · rfl
    rename_i above habove
    rw [if_neg]
    rw [hlargest above (mem_iff_getElem?.2 ⟨_, habove⟩)]
    decide

lemma push_last (hlargest : ∀ x ∈ heap, lt item x = false) (hself : lt item item = false) :
    push lt heap item = heap ++ [item] := by
  unfold push
  rw [rise_stays, set_append_right _ _ (Nat.le_refl _)]
  · simp
  intro x hx
  rw [mem_append, mem_singleton] at hx
  rcases hx with hx | rfl
  · exact hlargest x hx
  exact hself

lemma mem_sink (h : x ∈ (sink lt fuel heap hole).1) : x ∈ heap := by
  induction fuel generalizing heap hole with
  | zero => exact h
  | succ fuel ih =>
    unfold sink at h
    split at h
    · exact h
    rename_i child item hchild
    rcases mem_or_eq_of_mem_set (ih h) with hx | rfl
    · exact hx
    unfold smallerChild at hchild
    split at hchild
    · cases hchild
    · rename_i hleft _
      obtain ⟨rfl, rfl⟩ := Prod.mk.inj (some.inj hchild)
      exact mem_iff_getElem?.2 ⟨_, hleft⟩
    rename_i hleft hright
    split at hchild
    · obtain ⟨rfl, rfl⟩ := Prod.mk.inj (some.inj hchild)
      exact mem_iff_getElem?.2 ⟨_, hleft⟩
    obtain ⟨rfl, rfl⟩ := Prod.mk.inj (some.inj hchild)
    exact mem_iff_getElem?.2 ⟨_, hright⟩

lemma pop_above (hw : WeakOrder lt) {front : List α} {largest : α}
    (hlargest : ∀ x ∈ front, lt largest x = false) (hself : lt largest largest = false)
    (habove : Above j i) (hj : 0 < j) (hp : front[j]? = some p) (hc : front[i]? = some c) :
    ∃ root rest, pop lt (front ++ [largest]) = some (root, rest) ∧ front[0]? = some root ∧
      ∃ j' i', Above j' i' ∧ rest[j']? = some p ∧ rest[i']? = some c := by
  cases front with
  | nil => cases hp
  | cons root middle =>
    have hdrop : (root :: middle ++ [largest]).dropLast = root :: middle := dropLast_concat
    have hlast : (root :: middle ++ [largest]).getLast? = some largest := getLast?_concat
    have hi : 0 < i := habove.cases.1
    -- below the root the hole has taken the place of nothing
    have hsame : ∀ k, 0 < k → (largest :: middle)[k]? = (root :: middle)[k]? := by
      intro k hk
      obtain ⟨k, rfl⟩ := Nat.exists_eq_succ_of_ne_zero (Nat.pos_iff_ne_zero.1 hk)
      rw [getElem?_cons_succ, getElem?_cons_succ]
    obtain ⟨j', i', habove', hp', hc', hj', hi'⟩ : ∃ j' i', Above j' i' ∧
        (sunk lt largest middle).1[j']? = some p ∧ (sunk lt largest middle).1[i']? = some c ∧
        j' ≠ (sunk lt largest middle).2 ∧ i' ≠ (sunk lt largest middle).2 :=
      sink_above hw (Nat.succ_pos middle.length) habove ((hsame j hj).trans hp)
        ((hsame i hi).trans hc) (Nat.pos_iff_ne_zero.1 hj) (Nat.pos_iff_ne_zero.1 hi)
    have hstays : ∀ x ∈ (sunk lt largest middle).1, lt largest x = false := by
      intro x hx
      rcases mem_cons.1 (mem_sink hx) with rfl | hx
      · exact hself
      exact hlargest x (mem_cons_of_mem _ hx)
    refine ⟨root, rise lt largest (sunk lt largest middle).2 (sunk lt largest middle).1
      (sunk lt largest middle).2, ?_, rfl, j', i', habove', ?_, ?_⟩
    · unfold pop
      rw [hlast, hdrop]
    · rw [rise_stays hstays, getElem?_set_ne (Ne.symm hj')]
      exact hp'
    rw [rise_stays hstays, getElem?_set_ne (Ne.symm hi')]
    exact hc'

end
end DeterminFlow.Library.BinaryHeap
