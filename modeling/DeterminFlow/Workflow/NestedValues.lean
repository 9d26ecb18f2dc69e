/-
  Workflow.NestedValues
  **VALUES THAT REFER TO OTHER VALUES.**

  `_resolve_nested_value` replaces the first placeholder of a text, again and
  again.  A recursive call knows the keys above it and its depth; the loop
  itself knows neither, so a placeholder that a replacement forms with the text
  around it is replaced like any other.
-/
import Mathlib
import DeterminFlow.Workflow.Placeholders

namespace DeterminFlow.Workflow.Placeholders

open Library Workflow.Condition List

/-! ## The loop -/

/-- The errors of `_resolve_nested_value`, with the keys of the message. -/
inductive ResolveError where
  | depth
  | cycle (visited : List Text) (key : Text)
  deriving DecidableEq

def maxResolveDepth : Nat := 10

lemma lawfulBEq_text : LawfulBEq Text := inferInstance

attribute [local instance] lawfulBEq_text

/-- `"{{" in value` -/
def hasOpening (value : Text) : Bool := decide (['{', '{'] <:+: value)

def enter (depth : Nat) (value : Text) (loop : Option (Except ResolveError Text)) :
    Option (Except ResolveError Text) :=
  if value = [] ∨ hasOpening value = false then some (.ok value)
  else if maxResolveDepth < depth then some (.error .depth)
  else loop

section
variable (w : WordClass) (values : Dict Text Text)

/-- The loop of `_resolve_nested_value`; `none` when the fuel runs out. -/
def resolveLoop : Nat → List Text → Nat → Text → Option (Except ResolveError Text)
  | 0, _, _, _ => none
  | fuel + 1, visited, depth, result =>
    match search w result with
    | none => some (.ok result)
    | some (before, key, after) =>
      if key ∈ visited then some (.error (.cycle visited key))
      else
        match values.get? key with
        | none => some (.ok result)
        | some value =>
          match enter (depth + 1) value (resolveLoop fuel (key :: visited) (depth + 1) value) with
          | none => none
          | some (.error e) => some (.error e)
          | some (.ok replacement) =>
            resolveLoop fuel visited depth (before ++ (replacement ++ after))

/-- `_resolve_nested_value`; `none` when the fuel runs out. -/
def resolveNestedValue (fuel : Nat) (visited : List Text) (depth : Nat) (value : Text) :
    Option (Except ResolveError Text) :=
  enter depth value (resolveLoop w values fuel visited depth value)

/-! ## Placeholders that a replacement forms -/

/-- How many of the placeholders that the loop replaces, in all calls, do not lie
in the part of the text that no replacement has touched: `untouched` characters
at its end. -/
def joinsLoop : Nat → List Text → Nat → Nat → Text → Nat
  | 0, _, _, _, _ => 0
  | fuel + 1, visited, depth, untouched, result =>
    match search w result with
    | none => 0
    | some (before, key, after) =>
      if key ∈ visited then 0
      else
        match values.get? key with
        | none => 0
        | some value =>
          (if untouched < (placeholder key ++ after).length then 1 else 0)
            + joinsLoop fuel (key :: visited) (depth + 1) value.length value
                * (if maxResolveDepth < depth + 1 then 0 else 1)
            + match enter (depth + 1) value
                (resolveLoop w values fuel (key :: visited) (depth + 1) value) with
              | some (.ok replacement) =>
                joinsLoop fuel visited depth (min untouched after.length)
                  (before ++ (replacement ++ after))
              | _ => 0

/-- The placeholders that a replacement formed with the text around it and that
`_resolve_nested_value` replaces. -/
def joins (fuel : Nat) (visited : List Text) (depth : Nat) (value : Text) : Nat :=
  if maxResolveDepth < depth then 0 else joinsLoop w values fuel visited depth value.length value

end

section
variable {w : WordClass} {values : Dict Text Text}

lemma search_of_noOpening {value : Text} (h : hasOpening value = false) :
    search w value = none := by
  cases hfound : search w value with
  | none => rfl
  | some found =>
    have hparts : search w value = some (found.1, found.2.1, found.2.2) := hfound
    obtain ⟨-, htext⟩ := search_some hparts
    exact absurd (⟨found.1, found.2.1 ++ ('}' :: '}' :: found.2.2), by
      rw [htext, placeholder_append, append_assoc]; rfl⟩) (of_decide_eq_false h)

/-! ## One turn of the loop -/

variable {visited : List Text} {fuel depth n m untouched : Nat} {r : Except ResolveError Text}

lemma resolveLoop_known {result before key after value : Text}
    (hfound : search w result = some (before, key, after)) (hkey : key ∉ visited)
    (hvalue : values.get? key = some value) : resolveLoop w values (fuel + 1) visited depth result =
      match enter (depth + 1) value
          (resolveLoop w values fuel (key :: visited) (depth + 1) value) with
      | none => none
      | some (.error e) => some (.error e)
      | some (.ok replacement) =>
        resolveLoop w values fuel visited depth (before ++ (replacement ++ after)) := by
  rw [resolveLoop, hfound]
  simp only
  rw [if_neg hkey, hvalue]

inductive Ends (w : WordClass) (values : Dict Text Text) (visited : List Text) (result : Text) :
    Except ResolveError Text → Prop
  | noHole (hfound : search w result = none) : Ends w values visited result (.ok result)
  | cycle {before key after : Text} (hfound : search w result = some (before, key, after))
      (hkey : key ∈ visited) : Ends w values visited result (.error (.cycle visited key))
  | unknown {before key after : Text} (hfound : search w result = some (before, key, after))
      (hkey : key ∉ visited) (hvalue : values.get? key = none) :
      Ends w values visited result (.ok result)

lemma Ends.resolveLoop {visited : List Text} {result : Text} {r : Except ResolveError Text}
    (h : Ends w values visited result r) (fuel depth : Nat) :
    resolveLoop w values (fuel + 1) visited depth result = some r := by
  cases h with
  | noHole hfound => rw [Placeholders.resolveLoop, hfound]
  | cycle hfound hkey =>
    rw [Placeholders.resolveLoop, hfound]
    exact if_pos hkey
  | unknown hfound hkey hvalue =>
    rw [Placeholders.resolveLoop, hfound]
    simp only
    rw [if_neg hkey, hvalue]

lemma Ends.joinsLoop {visited : List Text} {result : Text} {r : Except ResolveError Text}
    (h : Ends w values visited result r) (fuel depth untouched : Nat) :
    joinsLoop w values fuel visited depth untouched result = 0 := by
  cases fuel with
  | zero => rfl
  | succ =>
    cases h with
    | noHole hfound => rw [Placeholders.joinsLoop, hfound]
    | cycle hfound hkey =>
      rw [Placeholders.joinsLoop, hfound]
      exact if_pos hkey
    | unknown hfound hkey hvalue =>
      rw [Placeholders.joinsLoop, hfound]
      simp only
      rw [if_neg hkey, hvalue]

lemma ends_or_known (w : WordClass) (values : Dict Text Text) (visited : List Text)
    (result : Text) : (∃ r, Ends w values visited result r) ∨ ∃ before key after value,
      search w result = some (before, key, after) ∧ key ∉ visited
        ∧ values.get? key = some value := by
  cases hfound : search w result with
  | none => exact .inl ⟨_, .noHole hfound⟩
  | some found =>
    obtain ⟨before, key, after⟩ := found
    by_cases hkey : key ∈ visited
    · exact .inl ⟨_, .cycle hfound hkey⟩
    cases hvalue : values.get? key with
    | none => exact .inl ⟨_, .unknown hfound hkey hvalue⟩
    | some value => exact .inr ⟨before, key, after, value, rfl, hkey, hvalue⟩

lemma enter_mono {value : Text} {x y : Option (Except ResolveError Text)}
    (hxy : x = some r → y = some r) (h : enter depth value x = some r) :
    enter depth value y = some r := by
  unfold enter at h ⊢
  split_ifs at h ⊢
  · exact h
  · exact h
  exact hxy h

lemma resolveLoop_mono (hle : n ≤ m) {result : Text}
    (h : resolveLoop w values n visited depth result = some r) :
    resolveLoop w values m visited depth result = some r := by
  induction n generalizing m visited depth result r with
  | zero => cases h
  | succ n ih =>
    cases m with
    | zero => cases hle
    | succ =>
      have hle := Nat.le_of_succ_le_succ hle
      rcases ends_or_known w values visited result with ⟨_, hends⟩ | hknown
      · rw [hends.resolveLoop] at h ⊢
        exact h
      obtain ⟨_, key, _, value, hfound, hkey, hvalue⟩ := hknown
      rw [resolveLoop_known hfound hkey hvalue] at h ⊢
      cases hnested : enter (depth + 1) value
          (resolveLoop w values n (key :: visited) (depth + 1) value) with
      | none =>
        rw [hnested] at h
        cases h
      | some inner =>
        rw [enter_mono (ih hle) hnested]
        rw [hnested] at h
        cases inner with
        | error => exact h
        | ok => exact ih hle h

/-! ## Termination -/

lemma joinsLoop_known {result before key after value : Text}
    (hfound : search w result = some (before, key, after)) (hkey : key ∉ visited)
    (hvalue : values.get? key = some value) :
    joinsLoop w values (fuel + 1) visited depth untouched result =
      (if untouched < (placeholder key ++ after).length then 1 else 0)
        + joinsLoop w values fuel (key :: visited) (depth + 1) value.length value
            * (if maxResolveDepth < depth + 1 then 0 else 1)
        + match enter (depth + 1) value
            (resolveLoop w values fuel (key :: visited) (depth + 1) value) with
          | some (.ok replacement) =>
            joinsLoop w values fuel visited depth (min untouched after.length)
              (before ++ (replacement ++ after))
          | _ => 0 := by
  rw [joinsLoop, hfound]
  simp only
  rw [if_neg hkey, hvalue]

lemma joinsLoop_mono {n m : Nat} (hle : n ≤ m) (visited : List Text) (depth untouched : Nat)
    (result : Text) : joinsLoop w values n visited depth untouched result
      ≤ joinsLoop w values m visited depth untouched result := by
  induction n generalizing m visited depth untouched result with
  | zero => exact Nat.zero_le _
  | succ n ih =>
    cases m with
    | zero => cases hle
    | succ m =>
      have hle := Nat.le_of_succ_le_succ hle
      rcases ends_or_known w values visited result with ⟨_, hends⟩ | hknown
      · rw [hends.joinsLoop]
        exact Nat.zero_le _
      obtain ⟨_, key, _, value, hfound, hkey, hvalue⟩ := hknown
      rw [joinsLoop_known hfound hkey hvalue, joinsLoop_known hfound hkey hvalue]
      have hinner := ih hle (key :: visited) (depth + 1) value.length value
      apply Nat.add_le_add
      · exact Nat.add_le_add_left (Nat.mul_le_mul_right _ hinner) _
      split
      · next replacement hnested =>
        rw [enter_mono (resolveLoop_mono hle) hnested]
        exact ih hle _ _ _ _
      exact Nat.zero_le _

lemma joinsLoop_of_ended (hle : n ≤ m) {result : Text}
    (h : resolveLoop w values n visited depth result = some r) :
    joinsLoop w values m visited depth untouched result
      = joinsLoop w values n visited depth untouched result := by
  induction n generalizing m visited depth untouched result r with
  | zero => cases h
  | succ n ih =>
    cases m with
    | zero => cases hle
    | succ m =>
      have hle := Nat.le_of_succ_le_succ hle
      rcases ends_or_known w values visited result with ⟨_, hends⟩ | hknown
      · rw [hends.joinsLoop, hends.joinsLoop]
      obtain ⟨_, key, _, value, hfound, hkey, hvalue⟩ := hknown
      rw [resolveLoop_known hfound hkey hvalue] at h
      rw [joinsLoop_known hfound hkey hvalue, joinsLoop_known hfound hkey hvalue]
      cases hnested : enter (depth + 1) value
          (resolveLoop w values n (key :: visited) (depth + 1) value) with
      | none =>
        rw [hnested] at h
        cases h
      | some inner =>
        -- the nested call has ended too, or it was never made
        have hinner : joinsLoop w values m (key :: visited) (depth + 1) value.length value
              * (if maxResolveDepth < depth + 1 then 0 else 1)
            = joinsLoop w values n (key :: visited) (depth + 1) value.length value
              * (if maxResolveDepth < depth + 1 then 0 else 1) := by
          split
          · rw [Nat.mul_zero, Nat.mul_zero]
          next hdepth =>
          unfold enter at hnested
          split_ifs at hnested with hplain
          · have hends : Ends w values (key :: visited) value (.ok value) := by
              apply Ends.noHole
              rcases hplain with rfl | hopening
              · rfl
              exact search_of_noOpening hopening
            rw [hends.joinsLoop, hends.joinsLoop]
          rw [ih hle hnested]
        rw [hinner, enter_mono (resolveLoop_mono hle) hnested]
        rw [hnested] at h
        cases inner with
        | error => rfl
        | ok =>
          simp only
          rw [ih hle h]

lemma resolveLoop_terminates
    (hnested : depth + 1 ≤ maxResolveDepth → ∀ visited value bound,
      (∀ fuel, joinsLoop w values fuel visited (depth + 1) value.length value ≤ bound) →
      ∃ fuel r, resolveLoop w values fuel visited (depth + 1) value = some r) (visited : List Text)
    {bound : Nat} {result : Text}
    (hbound : ∀ fuel, joinsLoop w values fuel visited depth untouched result ≤ bound) :
    ∃ fuel r, resolveLoop w values fuel visited depth result = some r := by
  -- every turn takes a joined placeholder, or a part of the untouched text
  induction hmeasure : bound + untouched using Nat.strong_induction_on
    generalizing bound untouched result with
  | _ measure ih =>
    rcases ends_or_known w values visited result with ⟨r, hends⟩ | hknown
    · exact ⟨1, r, hends.resolveLoop 0 depth⟩
    obtain ⟨before, key, after, value, hfound, hkey, hvalue⟩ := hknown
    have hlength : (placeholder key ++ after).length = key.length + 4 + after.length := by
      rw [length_append, length_placeholder]
    have hturn : ∀ fuel, joinsLoop w values (fuel + 1) visited depth untouched result ≤ bound :=
      fun fuel => hbound (fuel + 1)
    simp only [joinsLoop_known hfound hkey hvalue] at hturn
    have hinner : ∃ fuel r, enter (depth + 1) value
        (resolveLoop w values fuel (key :: visited) (depth + 1) value) = some r := by
      unfold enter
      split_ifs with hplain hdepth
      · exact ⟨0, _, rfl⟩
      · exact ⟨0, _, rfl⟩
      apply hnested (Nat.le_of_not_lt hdepth) (key :: visited) value bound
      intro fuel
      have := hturn fuel
      rw [if_neg hdepth, Nat.mul_one] at this
      omega
    obtain ⟨enough, r, hr⟩ := hinner
    cases r with
    | error e =>
      refine ⟨enough + 1, .error e, ?_⟩
      rw [resolveLoop_known hfound hkey hvalue, hr]
    | ok replacement =>
      have hlater : ∀ fuel, enough ≤ fuel → enter (depth + 1) value
          (resolveLoop w values fuel (key :: visited) (depth + 1) value) = some (.ok replacement) :=
        fun fuel hle => enter_mono (resolveLoop_mono hle) hr
      have hnext : ∃ fuel r, resolveLoop w values fuel visited depth
          (before ++ (replacement ++ after)) = some r := by
        by_cases hjoined : untouched < (placeholder key ++ after).length
        · refine ih (bound - 1 + min untouched after.length) ?_ (fun fuel => ?_) rfl
          · have := hturn 0
            rw [if_pos hjoined] at this
            omega
          have hmono := @joinsLoop_mono w values _ _ (Nat.le_max_left fuel enough)
            visited depth (min untouched after.length) (before ++ (replacement ++ after))
          have := hturn (max fuel enough)
          rw [hlater _ (Nat.le_max_right fuel enough), if_pos hjoined] at this
          simp only at this
          omega
        refine ih (bound + min untouched after.length) ?_ (fun fuel => ?_) rfl
        · omega
        have hmono := @joinsLoop_mono w values _ _ (Nat.le_max_left fuel enough)
          visited depth (min untouched after.length) (before ++ (replacement ++ after))
        have := hturn (max fuel enough)
        rw [hlater _ (Nat.le_max_right fuel enough)] at this
        simp only at this
        omega
      obtain ⟨fuel, r, hr'⟩ := hnext
      refine ⟨max fuel enough + 1, r, ?_⟩
      rw [resolveLoop_known hfound hkey hvalue, hlater _ (Nat.le_max_right fuel enough)]
      exact resolveLoop_mono (Nat.le_max_left fuel enough) hr'

lemma resolveLoop_ends {left : Nat} (hleft : left + depth = maxResolveDepth) (visited : List Text)
    (value : Text) (bound : Nat)
    (hbound : ∀ fuel, joinsLoop w values fuel visited depth value.length value ≤ bound) :
    ∃ fuel r, resolveLoop w values fuel visited depth value = some r := by
  induction left generalizing depth visited value bound with
  | zero =>
    apply resolveLoop_terminates _ visited hbound
    intro _
    omega
  | succ left ih =>
    apply resolveLoop_terminates _ visited hbound
    intro _ visited value bound hbound
    exact ih (by omega) visited value bound hbound

end

/-! ## A replacement that always forms the next placeholder -/

theorem search_skip {w : WordClass} {front : Text} (h : ∀ c ∈ front, c ≠ '{') (text : Text) :
    search w (front ++ text) = (search w text).map (fun found => (front ++ found.1, found.2)) := by
  induction front with
  | nil =>
    rw [nil_append]
    cases search w text with
    | _ => rfl
  | cons c rest ih =>
    rw [cons_append, search_chr (placeholderAt_of_ne (h c mem_cons_self) _),
      ih (fun d hd => h d (mem_cons_of_mem c hd))]
    cases search w text with
    | _ => rfl

/-- `{{a`, which `}}` would close. -/
def openA : Text := ['{', '{', 'a']

/-- The value of `a`, `}}}}{{a{{a`: it closes what stands before it and opens twice. -/
def joinedBraces : Text := ['}', '}', '}', '}'] ++ (openA ++ openA)

lemma isKey_a : IsKey asciiWords ['a'] := by
  constructor
  · exact cons_ne_nil _ _
  exact List.all_eq_true.1 rfl

lemma search_opened (front rest : Text) (hfront : ∀ c ∈ front, c ≠ '{') :
    search asciiWords (front ++ (openA ++ (placeholder ['a'] ++ rest)))
      = some (front ++ openA, ['a'], rest) := by
  have hplaceholder := search_placeholder isKey_a rest
  have hthree : search asciiWords (openA ++ (placeholder ['a'] ++ rest))
      = some (openA, ['a'], rest) := by
    show search asciiWords ('{' :: '{' :: 'a' :: (placeholder ['a'] ++ rest)) = _
    rw [search_chr rfl, search_chr rfl, search_chr (placeholderAt_of_ne (by decide) _), hplaceholder]
    rfl
  rw [search_skip hfront, hthree]
  rfl

lemma resolveLoop_replaced {fuel : Nat} {text before after : Text}
    (hfound : search asciiWords text = some (before, ['a'], after))
    (h : resolveLoop asciiWords [(['a'], joinedBraces)] fuel [] 0
      (before ++ (joinedBraces ++ after)) = none) :
    resolveLoop asciiWords [(['a'], joinedBraces)] (fuel + 1) [] 0 text = none := by
  rw [resolveLoop_known hfound not_mem_nil rfl]
  cases fuel with
  | zero => rfl
  | succ fuel =>
    have hends : Ends asciiWords [(['a'], joinedBraces)] [['a']] joinedBraces (.ok joinedBraces) :=
      .noHole (by decide)
    have henter : enter (0 + 1) joinedBraces (resolveLoop asciiWords [(['a'], joinedBraces)]
        (fuel + 1) [['a']] (0 + 1) joinedBraces) = some (.ok joinedBraces) := by
      rw [hends.resolveLoop]
      decide
    rw [henter]
    exact h

end DeterminFlow.Workflow.Placeholders
