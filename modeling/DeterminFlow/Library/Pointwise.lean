/-
  Library.Pointwise
  **TWO LISTS, RELATED POSITION BY POSITION.**

  What is kept when both lists of a `List.Forall₂` are extended or changed at
  the same position, and what the related elements at one position are.
-/
import Mathlib.Data.List.Forall2

namespace DeterminFlow.Library.Pointwise

section
variable {α β : Type} {R : α → β → Prop} {l : List α} {m : List β} {i : Nat} {a : α} {b : β}
  {f : β → β}

lemma partner (h : List.Forall₂ R l m) (ha : l[i]? = some a) : ∃ b, m[i]? = some b ∧ R a b := by
  induction h generalizing i with
  | nil => cases ha
  | @cons a' b' l' m' hab _ ih =>
    cases i with
    | zero =>
      cases ha
      exact ⟨b', rfl, hab⟩
    | succ => exact ih ha

lemma partner_left (h : List.Forall₂ R l m) (hb : m[i]? = some b) :
    ∃ a, l[i]? = some a ∧ R a b := by
  induction h generalizing i with
  | nil => cases hb
  | @cons a' b' l' m' hab _ ih =>
    cases i with
    | zero =>
      cases hb
      exact ⟨a', rfl, hab⟩
    | succ => exact ih hb

lemma set (h : List.Forall₂ R l m) (hab : R a b) (i : Nat) :
    List.Forall₂ R (l.set i a) (m.set i b) := by
  induction h generalizing i with
  | nil => exact .nil
  | cons hhead htail ih =>
    cases i with
    | zero => exact .cons hab htail
    | succ i => exact .cons hhead (ih i)

lemma concat (h : List.Forall₂ R l m) (hab : R a b) : List.Forall₂ R (l ++ [a]) (m ++ [b]) :=
  List.rel_append h (.cons hab .nil)

lemma of_map {f : α → β} (h : ∀ (i : Nat) (a : α), l[i]? = some a → R a (f a)) :
    List.Forall₂ R l (l.map f) := by
  induction l with
  | nil => exact .nil
  | cons a rest ih => exact .cons (h 0 a rfl) (ih (fun i b hb => h (i + 1) b hb))

lemma map_right (h : List.Forall₂ R l m)
    (hf : ∀ (i : Nat) (a : α) (b : β), l[i]? = some a → R a b → R a (f b)) :
    List.Forall₂ R l (m.map f) := by
  induction h with
  | nil => exact .nil
  | cons hhead _ ih =>
    exact .cons (hf 0 _ _ rfl hhead) (ih (fun i a b ha => hf (i + 1) a b ha))

lemma set_map (h : List.Forall₂ R l m) {a' : α}
    (hat : ∀ (a : α) (b : β), l[i]? = some a → R a b → R a' (f b))
    (helse : ∀ (j : Nat) (a : α) (b : β), j ≠ i → l[j]? = some a → R a b → R a (f b)) :
    List.Forall₂ R (l.set i a') (m.map f) := by
  induction h generalizing i with
  | nil => exact .nil
  | @cons a b l' m' hhead htail ih =>
    cases i with
    | zero =>
      refine .cons (hat a b rfl hhead) (map_right htail (fun j a b ha => ?_))
      exact helse (j + 1) a b (by omega) ha
    | succ =>
      refine .cons (helse 0 a b (by omega) rfl hhead) (ih hat ?_)
      exact fun j a b _ ha => helse (j + 1) a b (by omega) ha

end
end DeterminFlow.Library.Pointwise
