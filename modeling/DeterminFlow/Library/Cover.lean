/-
  Library.Cover
  **EXACTLY-ONCE COVERS.**

  A family of duplicate-free lists covers an element exactly once when some
  list of the family holds it and no two of them do.
-/
import Mathlib.Data.List.Nodup
import Mathlib.Data.List.Pairwise

namespace DeterminFlow.Library

open List

variable {α : Type*}

/-- `p` and `q` have no element of `E` in common. -/
def Apart (E : α → Prop) (p q : List α) : Prop := ∀ n, E n → n ∈ p → n ∉ q

lemma pairwise_apart_iff {E : α → Prop} {L : List (List α)} :
    L.Pairwise (Apart E) ↔ ∀ n, E n → L.Pairwise (fun p q => n ∈ p → n ∉ q) := by
  induction L with
  | nil => simp
  | cons p L ih =>
    simp only [pairwise_cons, ih]
    constructor
    · rintro ⟨hp, hL⟩ n hn
      exact ⟨fun q hq => hp q hq n hn, hL n hn⟩
    intro h
    exact ⟨fun q hq n hn => (h n hn).1 q hq, fun n hn => (h n hn).2⟩

variable [DecidableEq α]

lemma count_flatten_eq_one_iff {L : List (List α)} (hnodup : ∀ p ∈ L, p.Nodup) (n : α) :
    L.flatten.count n = 1 ↔
      (∃ p ∈ L, n ∈ p) ∧ L.Pairwise (fun p q => n ∈ p → n ∉ q) := by
  induction L with
  | nil => simp
  | cons p L ih =>
    have ih := ih (fun q hq => hnodup q (mem_cons_of_mem _ hq))
    have hcount : (p :: L).flatten.count n = p.count n + L.flatten.count n := by
      simp [count_append]
    rw [hcount, pairwise_cons]
    by_cases hp : n ∈ p
    · -- the head list holds it: no other list may
      have hone : p.count n = 1 := count_eq_one_of_mem (hnodup p (by simp)) hp
      constructor
      · intro h
        have hzero : L.flatten.count n = 0 := by omega
        have hnone : ∀ q ∈ L, n ∉ q := by
          intro q hq hnq
          exact count_eq_zero.1 hzero (mem_flatten.2 ⟨q, hq, hnq⟩)
        refine ⟨⟨p, by simp, hp⟩, fun q hq _ => hnone q hq, ?_⟩
        exact List.Pairwise.imp_of_mem (fun ha _ _ hna => absurd hna (hnone _ ha))
          (pairwise_of_forall (R := fun _ _ => True) (fun _ _ => trivial))
      rintro ⟨_, hhead, _⟩
      have hzero : L.flatten.count n = 0 := by
        rw [count_eq_zero]
        intro hmem
        obtain ⟨q, hq, hnq⟩ := mem_flatten.1 hmem
        exact hhead q hq hp hnq
      omega
    -- the head list does not: the rest decides
    have hnone : p.count n = 0 := count_eq_zero.2 hp
    rw [hnone, Nat.zero_add, ih]
    constructor
    · rintro ⟨⟨q, hq, hnq⟩, hpair⟩
      exact ⟨⟨q, mem_cons_of_mem _ hq, hnq⟩, fun _ _ h => absurd h hp, hpair⟩
    rintro ⟨⟨q, hq, hnq⟩, _, hpair⟩
    rcases mem_cons.1 hq with rfl | hq
    · exact absurd hnq hp
    exact ⟨⟨q, hq, hnq⟩, hpair⟩

/-- **Every element of `E` is covered exactly once** iff each is covered and
the lists are pairwise apart on `E`. -/
theorem covers_once_iff {E : α → Prop} {L : List (List α)} (hnodup : ∀ p ∈ L, p.Nodup) :
    (∀ n, E n → L.flatten.count n = 1) ↔
      (∀ n, E n → ∃ p ∈ L, n ∈ p) ∧ L.Pairwise (Apart E) := by
  rw [pairwise_apart_iff]
  constructor
  · intro h
    exact ⟨fun n hn => ((count_flatten_eq_one_iff hnodup n).1 (h n hn)).1,
      fun n hn => ((count_flatten_eq_one_iff hnodup n).1 (h n hn)).2⟩
  rintro ⟨hcover, hpair⟩ n hn
  exact (count_flatten_eq_one_iff hnodup n).2 ⟨hcover n hn, hpair n hn⟩

end DeterminFlow.Library
