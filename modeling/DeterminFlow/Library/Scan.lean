/-
  Library.Scan
  **LOOPS THAT SCAN A RANGE FROM ITS END.**

  Two loops over `range(n - 1, lo - 1, -1)`: the search for the last index
  with a property, and the scan that stops when a budget is exhausted.
  Their specifications speak of indices and of sums over a tail only.
-/
import Mathlib.Data.List.Basic
import Mathlib.Tactic.Linarith

namespace DeterminFlow.Library

/-! ## The last index with a property -/

/-- `for i in range(n - 1, lo - 1, -1): if p(i): return i`. -/
def scanDown (p : Nat → Bool) (lo : Nat) : Nat → Option Nat
  | 0 => none
  | n + 1 => if n < lo then none else if p n then some n else scanDown p lo n

lemma scanDown_eq_some {p : Nat → Bool} {lo n i : Nat} : scanDown p lo n = some i ↔
      (lo ≤ i ∧ i < n ∧ p i = true) ∧ ∀ j, i < j → j < n → p j = false := by
  induction n with
  | zero => simp [scanDown]
  | succ n ih =>
    unfold scanDown
    by_cases hlo : n < lo
    · simp only [if_pos hlo, reduceCtorEq, false_iff]
      rintro ⟨⟨h₁, h₂, -⟩, -⟩
      omega
    simp only [if_neg hlo]
    by_cases hp : p n = true
    · simp only [hp, if_true, Option.some.injEq]
      constructor
      · rintro rfl
        exact ⟨⟨by omega, by omega, hp⟩, fun j h₁ h₂ => by omega⟩
      rintro ⟨⟨-, _, -⟩, hlast⟩
      by_contra hne
      have hfalse := hlast n (by omega) (by omega)
      rw [hp] at hfalse
      cases hfalse
    simp only [Bool.not_eq_true] at hp
    simp only [hp, Bool.false_eq_true, if_false, ih]
    constructor
    · rintro ⟨⟨h₁, h₂, h₃⟩, hlast⟩
      refine ⟨⟨h₁, by omega, h₃⟩, fun j h₄ h₅ => ?_⟩
      by_cases hj : j = n
      · rw [hj, hp]
      exact hlast j h₄ (by omega)
    rintro ⟨⟨h₁, h₂, h₃⟩, hlast⟩
    refine ⟨⟨h₁, ?_, h₃⟩, fun j h₄ h₅ => hlast j h₄ (by omega)⟩
    have hin : i ≠ n := by
      rintro rfl
      rw [hp] at h₃
      cases h₃
    omega

lemma scanDown_eq_none {p : Nat → Bool} {lo n : Nat} :
    scanDown p lo n = none ↔ ∀ j, lo ≤ j → j < n → p j = false := by
  induction n with
  | zero => simp [scanDown]
  | succ n ih =>
    unfold scanDown
    by_cases hlo : n < lo
    · simp only [if_pos hlo, true_iff]
      intro j h₁ h₂
      omega
    simp only [if_neg hlo]
    by_cases hp : p n = true
    · simp only [hp, if_true, reduceCtorEq, false_iff, not_forall]
      exact ⟨n, by omega, by omega, by simp [hp]⟩
    simp only [Bool.not_eq_true] at hp
    simp only [hp, Bool.false_eq_true, if_false, ih]
    constructor
    · intro h j h₁ h₂
      by_cases hj : j = n
      · rw [hj, hp]
      exact h j h₁ (by omega)
    exact fun h j h₁ h₂ => h j h₁ (by omega)

/-! ## A budget -/

section
variable (cost : Nat → Nat)

/-- The cost of the indices `i, …, i + k - 1`. -/
def costFrom (i : Nat) : Nat → Nat
  | 0 => 0
  | k + 1 => cost i + costFrom (i + 1) k

/-- The cost of the indices from `i` to `len - 1`. -/
def tailCost (len i : Nat) : Nat := costFrom cost i (len - i)

lemma tailCost_step {len i : Nat} (h : i < len) :
    tailCost cost len i = cost i + tailCost cost len (i + 1) := by
  unfold tailCost
  obtain ⟨k, hk⟩ : ∃ k, len - i = k + 1 := ⟨len - i - 1, by omega⟩
  have hk' : len - (i + 1) = k := by omega
  rw [hk, hk']
  rfl

lemma tailCost_len (len : Nat) : tailCost cost len len = 0 := by
  unfold tailCost
  rw [Nat.sub_self]
  rfl

lemma tailCost_antitone {len i j : Nat} (hij : i ≤ j) (hj : j ≤ len) :
    tailCost cost len j ≤ tailCost cost len i := by
  induction j with
  | zero =>
    obtain rfl : i = 0 := by omega
    exact le_rfl
  | succ j ih =>
    by_cases hi : i = j + 1
    · rw [hi]
    have hle := ih (by omega) (by omega)
    rw [tailCost_step cost (show j < len by omega)] at hle
    omega

/-- Scan down from `n - 1` while the cost fits in `budget`; `spent` is the
cost so far, `split` the last index that fitted. -/
def budgetScan (budget : Int) (lo : Nat) : (n spent split : Nat) → Nat
  | 0, _, split => split
  | n + 1, spent, split =>
    if n < lo then split
    else if budget < ((spent + cost n : Nat) : Int) then n + 1
    else budgetScan budget lo n (spent + cost n) n

lemma budgetScan_spec (budget : Int) (lo : Nat) {len : Nat} (n : Nat) (hlo : lo ≤ n) (hn : n ≤ len)
    (hfits : n < len → (tailCost cost len n : Int) ≤ budget) :
    lo ≤ budgetScan cost budget lo n (tailCost cost len n) n ∧
      budgetScan cost budget lo n (tailCost cost len n) n ≤ n ∧
      (budgetScan cost budget lo n (tailCost cost len n) n < len →
        (tailCost cost len (budgetScan cost budget lo n (tailCost cost len n) n) : Int) ≤ budget) ∧
      (lo < budgetScan cost budget lo n (tailCost cost len n) n →
        budget < tailCost cost len (budgetScan cost budget lo n (tailCost cost len n) n - 1)) := by
  induction n with
  | zero =>
    refine ⟨hlo, le_rfl, hfits, fun h => ?_⟩
    exact absurd h (Nat.not_lt_zero _)
  | succ n ih =>
    unfold budgetScan
    by_cases hend : n < lo
    · simp only [if_pos hend]
      exact ⟨by omega, le_rfl, hfits, fun h => by omega⟩
    simp only [if_neg hend]
    have hstep : tailCost cost len (n + 1) + cost n = tailCost cost len n := by
      rw [tailCost_step cost (show n < len by omega), Nat.add_comm]
    rw [hstep]
    by_cases hover : budget < (tailCost cost len n : Int)
    · simp only [if_pos hover]
      exact ⟨by omega, le_rfl, hfits, fun _ => hover⟩
    simp only [if_neg hover]
    obtain ⟨h₁, _, h₃, h₄⟩ := ih (by omega) (by omega) (fun _ => by omega)
    exact ⟨h₁, by omega, h₃, h₄⟩

variable {cost}

lemma budgetEnd_unique {budget : Int} {lo len s t : Nat} (hs : lo < s) (hslen : s < len)
    (ht : lo ≤ t) (htlen : t ≤ len)
    (hsfits : (tailCost cost len s : Int) ≤ budget) (hsover : budget < tailCost cost len (s - 1))
    (htfits : t < len → (tailCost cost len t : Int) ≤ budget)
    (htover : lo < t → budget < tailCost cost len (t - 1)) : t = s := by
  rcases lt_trichotomy t s with hlt | heq | hgt
  · have hle := tailCost_antitone cost (show t ≤ s - 1 by omega) (show s - 1 ≤ len by omega)
    have hfits := htfits (by omega)
    omega
  · exact heq
  have hle := tailCost_antitone cost (show s ≤ t - 1 by omega) (show t - 1 ≤ len by omega)
  have hover := htover (by omega)
  omega

end
end DeterminFlow.Library
