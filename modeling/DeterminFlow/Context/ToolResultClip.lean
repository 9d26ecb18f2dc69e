/-
  Context.ToolResultClip
  **THE LONGEST CUT OF A TOOL RESULT.**

  The binary search counts the characters that are kept, the odd one going to
  the end of the text.  A longer cut of that shape has the shorter one as a
  sublist, so its estimate is no smaller.
-/
import DeterminFlow.Context.FullCompact

namespace DeterminFlow.Context

open List

def clipMarker (original : Nat) : List Char :=
  ("\n...[Tool result clipped: original ~" ++ toString original ++ " tokens]...\n").toList

/-- `_clip_content` of a text, for any target. -/
def clipText (text : String) (target : Int) : String :=
  let original := estimateTokens text
  if original ≤ target then text
  else
    let marker := clipMarker original
    String.ofList (clipSearch text.toList marker (max 64 target).toNat (text.toList.length + 1) 0
      (text.toList.length + 1) marker)

def endsOf (text marker : List Char) (head tail : Nat) : List Char :=
  text.take head ++ marker ++ text.drop (text.length - tail)

def keepCut (text marker : List Char) (keep : Nat) : List Char :=
  endsOf text marker (keep / 2) (keep - keep / 2)

def Fits (text marker : List Char) (target keep : Nat) : Prop :=
  estimateTokens (String.ofList (keepCut text marker keep)) ≤ target

/-! ## The estimate grows with the cut -/

lemma estimateTokens_sublist {l l' : List Char} (h : l <+ l') :
    estimateTokens (String.ofList l) ≤ estimateTokens (String.ofList l') := by
  have hcjk := h.countP_le (p := isChinese)
  have hother := h.countP_le (p := fun c => !isChinese c)
  have hsplit := fun l : List Char => l.length_eq_countP_add_countP isChinese
  unfold estimateTokens
  simp only [String.toList_ofList, String.ofList_eq_empty_iff]
  have hl := hsplit l
  have hl' := hsplit l'
  simp only [Bool.not_eq_true, Bool.decide_eq_false] at hl hl'
  split
  · omega
  rw [if_neg (by rintro rfl; exact absurd (sublist_nil.1 h) (by assumption))]
  omega

variable {text marker : List Char} {target : Nat}

lemma endsOf_sublist {head tail head' tail' : Nat} (hhead : head ≤ head')
    (htail : tail ≤ tail') : endsOf text marker head tail <+ endsOf text marker head' tail' :=
  ((take_sublist_take_left hhead).append (Sublist.refl _)).append
    (drop_sublist_drop_left _ (by omega))

lemma Fits.mono {k k' : Nat} (h : Fits text marker target k') (hle : k ≤ k') :
    Fits text marker target k :=
  (estimateTokens_sublist (endsOf_sublist (by omega) (by omega))).trans h

/-! ## The search -/

/-- **The search for the last cut that fits**, `low ≤ keep_chars < high`. -/
structure Searching (text marker : List Char) (target low high : Nat) : Prop where
  low_le : low ≤ high
  high_le : high ≤ text.length + 1
  fits : 0 < low → Fits text marker target (low - 1)
  above : ∀ k, high ≤ k → k ≤ text.length → ¬ Fits text marker target k

structure LastFit (text marker : List Char) (target kept : Nat) : Prop where
  kept_le : kept ≤ text.length
  fits : Fits text marker target 0 → Fits text marker target kept
  longest : ∀ k, kept < k → k ≤ text.length → ¬ Fits text marker target k

variable {low high : Nat}

lemma Searching.done (h : Searching text marker target low high) (hle : high ≤ low) :
    LastFit text marker target (low - 1) where
  kept_le := by
    have := h.high_le
    have := h.low_le
    omega
  fits := fun hzero => by
    rcases Nat.eq_zero_or_pos low with rfl | hpos
    · exact hzero
    exact h.fits hpos
  longest := fun k _ hlen => h.above k (by omega) hlen

lemma clipSearch_lastFit (fuel : Nat) (h : Searching text marker target low high)
    (hfuel : high - low ≤ fuel) :
    ∃ kept, clipSearch text marker target fuel low high (keepCut text marker (low - 1))
      = keepCut text marker kept ∧ LastFit text marker target kept := by
  induction fuel generalizing low high with
  | zero => exact ⟨_, rfl, h.done (by omega)⟩
  | succ fuel ih =>
    unfold clipSearch
    split
    · exact ⟨_, rfl, h.done (by assumption)⟩
    have hkeep : low ≤ (low + high - 1) / 2 ∧ (low + high - 1) / 2 < high := by omega
    dsimp only
    split
    · rename_i hfit
      have hnext : Searching text marker target ((low + high - 1) / 2 + 1) high :=
        ⟨by omega, h.high_le, fun _ => hfit, h.above⟩
      exact ih hnext (by omega)
    rename_i hmiss
    -- a cut at least as long as one that misses misses too
    exact ih ⟨hkeep.1, by have := h.high_le; omega, h.fits,
      fun k hk _ hfit => hmiss (hfit.mono hk)⟩ (by omega)

/-! ## `_clip_content` -/

/-- What is promised of the clipped text, for the cuts that `balanced` admits. -/
def ClipsLongest (balanced : Nat → Nat → Prop) (text : String) (target : Int) : Prop :=
  let marker := clipMarker (estimateTokens text)
  let tokens := fun chars : List Char => (estimateTokens (String.ofList chars) : Int)
  (estimateTokens text ≤ target → clipText text target = text) ∧
  (target < estimateTokens text → ∃ head tail, balanced head tail ∧
    head + tail ≤ text.toList.length ∧
    clipText text target = String.ofList (endsOf text.toList marker head tail) ∧
    (tokens marker ≤ max 64 target → estimateTokens (clipText text target) ≤ max 64 target) ∧
    ∀ head' tail', balanced head' tail' → head' + tail' ≤ text.toList.length →
      head + tail < head' + tail' →
      max 64 target < tokens (endsOf text.toList marker head' tail'))

lemma clipText_lastFit {text : String} {target : Int} (h : target < estimateTokens text) :
    ∃ kept, clipText text target
        = String.ofList (keepCut text.toList (clipMarker (estimateTokens text)) kept) ∧
      LastFit text.toList (clipMarker (estimateTokens text)) (max 64 target).toNat kept := by
  have hmarker : clipMarker (estimateTokens text)
      = keepCut text.toList (clipMarker (estimateTokens text)) (0 - 1) := by
    simp [keepCut, endsOf]
  have hstart : Searching text.toList (clipMarker (estimateTokens text)) (max 64 target).toNat 0
      (text.toList.length + 1) := ⟨by omega, by omega, by simp, by omega⟩
  obtain ⟨kept, heq, hlast⟩ := clipSearch_lastFit (text.toList.length + 1) hstart (by omega)
  refine ⟨kept, ?_, hlast⟩
  unfold clipText
  rw [if_neg (by omega), ← heq, ← hmarker]

/-- **The result is the longest cut that meets the target**, among the cuts
that give the odd character to the end of the text. -/
theorem clipText_longest (text : String) (target : Int) :
    ClipsLongest (fun head tail => head ≤ tail ∧ tail ≤ head + 1) text target := by
  refine ⟨fun h => if_pos h, fun h => ?_⟩
  obtain ⟨kept, heq, hlast⟩ := clipText_lastFit h
  refine ⟨kept / 2, kept - kept / 2, by omega, by have := hlast.kept_le; omega, heq, ?_, ?_⟩
  · intro hmarker
    have hfit := hlast.fits (by
      simp only [Fits, keepCut, endsOf, Nat.zero_div, take_zero, Nat.sub_zero, drop_length,
        nil_append, append_nil]
      dsimp only at hmarker
      omega)
    rw [heq]
    unfold Fits at hfit
    dsimp only at hmarker ⊢
    omega
  intro head tail _ hlen _
  have hcut : keepCut text.toList (clipMarker (estimateTokens text)) (head + tail)
      = endsOf text.toList (clipMarker (estimateTokens text)) head tail := by
    have h₁ : (head + tail) / 2 = head := by omega
    simp [keepCut, h₁]
  have hmiss := hlast.longest (head + tail) (by omega) hlen
  rw [Fits, hcut] at hmiss
  dsimp only
  omega

/-! ## The odd character at the front -/

def lopsided : List Char := '中' :: (replicate 56 'a' ++ replicate 56 '中')

/-- A Latin character more at the front would still fit. -/
theorem clipText_longer_front :
    ¬ ∀ text target, ClipsLongest (fun head tail => head ≤ tail + 1 ∧ tail ≤ head + 1)
      text target := by
  intro h
  obtain ⟨-, h⟩ := h (String.ofList lopsided) 0
  have htokens : estimateTokens (String.ofList lopsided) = 53 := by decide +kernel
  rw [htokens, String.toList_ofList] at h
  obtain ⟨head, tail, _, _, heq, -, hlong⟩ := h (by decide)
  obtain ⟨kept, hkept, hlast⟩ := @clipText_lastFit (String.ofList lopsided) 0
    (by rw [htokens]; decide)
  rw [htokens, String.toList_ofList] at hkept hlast
  have hmiss : ¬ Fits lopsided (clipMarker 53) 64 111 := by unfold Fits; decide +kernel
  have hfront : estimateTokens (String.ofList (endsOf lopsided (clipMarker 53) 56 55)) ≤ 64 := by
    decide +kernel
  have hback : Fits lopsided (clipMarker 53) 64 110 := by unfold Fits; decide +kernel
  have hmarker : Fits lopsided (clipMarker 53) 64 0 := hback.mono (by omega)
  have hle : kept ≤ 110 := Nat.le_of_not_lt fun hlt => hmiss ((hlast.fits hmarker).mono hlt)
  have hgt : 111 ≤ head + tail := by
    by_contra hlt
    exact absurd (hlong 56 55 (by omega) (by decide) (by omega)) (by dsimp only; omega)
  have hlength := congrArg (fun s => s.toList.length) (heq.symm.trans hkept)
  have hsize : lopsided.length = 113 := by decide
  simp only [String.toList_ofList, endsOf, keepCut, length_append, length_take, length_drop]
    at hlength
  omega

end DeterminFlow.Context
