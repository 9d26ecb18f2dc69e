/-
  Workflow.Placeholders
  **PLACEHOLDERS IN A TEXT.**

  What `\{\{([\w.-]+)\}\}` finds in a text: the first placeholder
  (`re.search`), all of them (`re.finditer`, `re.sub`), and what
  `str.replace` does with a placeholder.
-/
import DeterminFlow.Library.Dict
import DeterminFlow.Workflow.Conditions

namespace DeterminFlow.Workflow.Placeholders

open Library Workflow.Condition List Option

/-! ## Finding placeholders -/

section
variable (w : WordClass)

/-- `[\w.-]` -/
def isKeyChar (c : Char) : Bool := w.isWord c || c = '.' || c = '-'

/-- `{{key}}` -/
def placeholder (key : Text) : Text := ['{', '{'] ++ (key ++ ['}', '}'])

/-- `_PLACEHOLDER_RE` at the beginning of a text: the key and the text behind. -/
def placeholderAt (text : Text) : Option (Text × Text) :=
  let key := (text.drop 2).takeWhile (isKeyChar w)
  let behind := (text.drop 2).dropWhile (isKeyChar w)
  if text.take 2 = ['{', '{'] ∧ key ≠ [] ∧ behind.take 2 = ['}', '}'] then
    some (key, behind.drop 2)
  else none

/-- `_PLACEHOLDER_RE.search`: what stands before the match, its key, and what
stands behind it. -/
def search : Text → Option (Text × Text × Text)
  | [] => none
  | c :: rest =>
    match placeholderAt w (c :: rest) with
    | some (key, after) => some ([], key, after)
    | none => (search rest).map (fun found => (c :: found.1, found.2))

/-- A piece of a text: a placeholder, or a character outside of them. -/
inductive Piece where
  | chr (c : Char)
  | hole (key : Text)
  deriving DecidableEq

/-- The text cut at the matches of `_PLACEHOLDER_RE.finditer`, as far as the
fuel goes. -/
def scanFuel : Nat → Text → List Piece
  | 0, _ => []
  | _ + 1, [] => []
  | fuel + 1, c :: rest =>
    match placeholderAt w (c :: rest) with
    | some (key, after) => .hole key :: scanFuel fuel after
    | none => .chr c :: scanFuel fuel rest

/-- The text cut at the matches of `_PLACEHOLDER_RE.finditer`. -/
def scan (text : Text) : List Piece := scanFuel w text.length text

/-- `_PLACEHOLDER_RE.sub` with the text that a match with a key becomes. -/
def subPieces (f : Text → Text) (pieces : List Piece) : Text :=
  pieces.flatMap (fun piece =>
    match piece with
    | .chr c => [c]
    | .hole key => f key)

end

/-- `str.replace(old, new)` for an `old` that is not empty, as far as the fuel goes. -/
def replaceFuel (old new : Text) : Nat → Text → Text
  | 0, _ => []
  | _ + 1, [] => []
  | fuel + 1, c :: rest =>
    if (c :: rest).take old.length = old then
      new ++ replaceFuel old new fuel ((c :: rest).drop old.length)
    else c :: replaceFuel old new fuel rest

/-- `str.replace(old, new)` -/
def replaceAll (old new text : Text) : Text := replaceFuel old new text.length text

/-! ## A placeholder at the beginning -/

section
variable {w : WordClass}

/-- A key: at least one character, all of them of keys. -/
structure IsKey (w : WordClass) (key : Text) : Prop where
  ne_nil : key ≠ []
  chars : ∀ c ∈ key, isKeyChar w c = true

lemma isKeyChar_brace : isKeyChar w '{' = false ∧ isKeyChar w '}' = false := by
  constructor
  · rw [isKeyChar, w.ascii '{' (by decide)]
    rfl
  rw [isKeyChar, w.ascii '}' (by decide)]
  rfl

lemma placeholder_append (key after : Text) :
    placeholder key ++ after = '{' :: '{' :: (key ++ '}' :: '}' :: after) := by
  simp only [placeholder, cons_append, nil_append, append_assoc]

lemma length_placeholder (key : Text) : (placeholder key).length = key.length + 4 := by
  simp only [placeholder, length_append, length_cons, length_nil]
  omega

lemma placeholder_ne_nil (key : Text) : placeholder key ≠ [] := cons_ne_nil _ _

lemma placeholderAt_some_iff {text key after : Text} :
    placeholderAt w text = some (key, after) ↔ IsKey w key ∧ text = placeholder key ++ after := by
  constructor
  · intro h
    unfold placeholderAt at h
    simp only at h
    split at h
    · next hfound =>
      obtain ⟨hopen, hne, hclose⟩ := hfound
      obtain ⟨rfl, rfl⟩ := Prod.mk.inj (some.inj h)
      constructor
      · constructor
        · exact hne
        intro _ hc
        exact mem_takeWhile_imp hc
      rw [placeholder_append]
      have htext := take_append_drop 2 text
      have hbody := takeWhile_append_dropWhile (p := isKeyChar w) (l := text.drop 2)
      have hbehind := take_append_drop 2 ((text.drop 2).dropWhile (isKeyChar w))
      rw [hclose] at hbehind
      rw [← hbehind] at hbody
      rw [hopen, ← hbody] at htext
      exact htext.symm
    cases h
  rintro ⟨hkey, rfl⟩
  have hbrace : isKeyChar w '}' = false := isKeyChar_brace.2
  have htake : (key ++ '}' :: '}' :: after).takeWhile (isKeyChar w) = key := by
    rw [takeWhile_append_of_pos hkey.chars, takeWhile_cons, hbrace]
    exact append_nil key
  have hdrop : (key ++ '}' :: '}' :: after).dropWhile (isKeyChar w) = '}' :: '}' :: after := by
    rw [dropWhile_append_of_pos hkey.chars, dropWhile_cons, hbrace]
    rfl
  rw [placeholder_append]
  unfold placeholderAt
  simp only [drop_succ_cons, drop_zero, htake, hdrop]
  rw [if_pos ⟨rfl, hkey.ne_nil, rfl⟩]

lemma placeholderAt_of_ne {c : Char} (hc : c ≠ '{') (rest : Text) :
    placeholderAt w (c :: rest) = none := by
  rw [eq_none_iff_forall_not_mem]
  rintro ⟨_, _⟩ h
  obtain ⟨-, heq⟩ := placeholderAt_some_iff.1 h
  rw [placeholder_append] at heq
  exact hc (cons.inj heq).1

lemma placeholderAt_length {text key after : Text}
    (h : placeholderAt w text = some (key, after)) : text.length = key.length + 4 + after.length := by
  obtain ⟨-, rfl⟩ := placeholderAt_some_iff.1 h
  rw [length_append, length_placeholder]

lemma placeholderAt_placeholder {key : Text} (hkey : IsKey w key) (after : Text) :
    placeholderAt w (placeholder key ++ after) = some (key, after) :=
  placeholderAt_some_iff.2 ⟨hkey, rfl⟩

/-! ## The pieces of a text -/

lemma scanFuel_eq {n m : Nat} {text : Text} (hn : text.length ≤ n) (hm : text.length ≤ m) :
    scanFuel w n text = scanFuel w m text := by
  induction n generalizing m text with
  | zero =>
    obtain rfl := length_eq_zero_iff.1 (Nat.le_zero.1 hn)
    cases m with
    | _ => rfl
  | succ n ih =>
    cases text with
    | nil =>
      cases m with
      | _ => rfl
    | cons c rest =>
      cases m with
      | zero => cases hm
      | succ m =>
        rw [length_cons] at hn hm
        rw [scanFuel, scanFuel]
        cases hat : placeholderAt w (c :: rest) with
        | none =>
          simp only
          rw [ih (by omega) (by omega : rest.length ≤ m)]
        | some found =>
          have hlength := placeholderAt_length hat
          rw [length_cons] at hlength
          simp only
          rw [ih (by omega) (by omega : found.2.length ≤ m)]

lemma scan_chr {c : Char} {rest : Text} (h : placeholderAt w (c :: rest) = none) :
    scan w (c :: rest) = .chr c :: scan w rest := by
  rw [scan, length_cons, scanFuel, h]
  rfl

lemma scan_of_ne {c : Char} (hc : c ≠ '{') (rest : Text) :
    scan w (c :: rest) = .chr c :: scan w rest := scan_chr (placeholderAt_of_ne hc rest)

lemma scan_hole {key : Text} (hkey : IsKey w key) (after : Text) :
    scan w (placeholder key ++ after) = .hole key :: scan w after := by
  have hat := placeholderAt_placeholder hkey after
  rw [placeholder_append] at hat ⊢
  rw [scan, length_cons, scanFuel, hat]
  simp only
  congr 1
  apply scanFuel_eq
  · rw [length_cons, length_append, length_cons, length_cons]
    omega
  exact le_rfl

lemma scan_induction {P : Text → Prop} (nil : P [])
    (hole : ∀ key after, IsKey w key → P after → P (placeholder key ++ after))
    (chr : ∀ c rest, placeholderAt w (c :: rest) = none → P rest → P (c :: rest)) (text : Text) :
    P text := by
  induction hn : text.length using Nat.strong_induction_on generalizing text with
  | _ n ih =>
    cases text with
    | nil => exact nil
    | cons c rest =>
      cases hat : placeholderAt w (c :: rest) with
      | none => exact chr c rest hat (ih rest.length (by rw [← hn]; exact Nat.lt_succ_self _) rest rfl)
      | some found =>
        obtain ⟨hkey, htext⟩ := placeholderAt_some_iff.1 hat
        have hlength := placeholderAt_length hat
        rw [htext]
        exact hole found.1 found.2 hkey (ih found.2.length (by omega) found.2 rfl)

lemma isKey_of_mem_scan {text key : Text} (h : .hole key ∈ scan w text) : IsKey w key := by
  induction text using scan_induction (w := w) with
  | nil => cases h
  | hole other after hkey ih =>
    rw [scan_hole hkey] at h
    rcases mem_cons.1 h with heq | h
    · obtain rfl := Piece.hole.inj heq
      exact hkey
    exact ih h
  | chr c rest hat ih =>
    rw [scan_chr hat] at h
    rcases mem_cons.1 h with heq | h
    · cases heq
    exact ih h

/-! ## The first placeholder -/

lemma search_placeholder {key : Text} (hkey : IsKey w key) (after : Text) :
    search w (placeholder key ++ after) = some ([], key, after) := by
  have hat := placeholderAt_placeholder hkey after
  rw [placeholder_append] at hat ⊢
  rw [search, hat]

lemma search_chr {c : Char} {rest : Text} (h : placeholderAt w (c :: rest) = none) :
    search w (c :: rest) = (search w rest).map (fun found => (c :: found.1, found.2)) := by
  rw [search, h]

lemma search_some {text before key after : Text} (h : search w text = some (before, key, after)) :
    IsKey w key ∧ text = before ++ (placeholder key ++ after) := by
  induction text generalizing before with
  | nil => cases h
  | cons c rest ih =>
    cases hat : placeholderAt w (c :: rest) with
    | some =>
      rw [search, hat] at h
      obtain ⟨rfl, hfound⟩ := Prod.mk.inj (some.inj h)
      obtain ⟨rfl, rfl⟩ := Prod.mk.inj hfound
      exact placeholderAt_some_iff.1 hat
    | none =>
      rw [search_chr hat] at h
      obtain ⟨⟨_, _⟩, hrest, heq⟩ := map_eq_some_iff.1 h
      obtain ⟨rfl, rfl⟩ := Prod.mk.inj heq
      obtain ⟨hkey, htext⟩ := ih hrest
      rw [htext]
      exact ⟨hkey, rfl⟩

lemma scan_search (text : Text) : (search w text = none → scan w text = text.map .chr)
      ∧ ∀ before key after, search w text = some (before, key, after) →
          scan w text = before.map .chr ++ .hole key :: scan w after := by
  induction text using scan_induction (w := w) with
  | nil =>
    constructor
    · exact fun _ => rfl
    intro before key after h
    cases h
  | hole key behind hkey =>
    rw [search_placeholder hkey, scan_hole hkey]
    constructor
    · intro h
      cases h
    intro before _ after h
    obtain ⟨rfl, hfound⟩ := Prod.mk.inj (some.inj h)
    obtain ⟨rfl, rfl⟩ := Prod.mk.inj hfound
    rfl
  | chr c rest hat ih =>
    rw [search_chr hat, scan_chr hat]
    constructor
    · intro h
      rw [ih.1 (map_eq_none_iff.1 h)]
      rfl
    intro before key after h
    obtain ⟨⟨front, _⟩, hrest, heq⟩ := map_eq_some_iff.1 h
    obtain ⟨rfl, hfound⟩ := Prod.mk.inj heq
    rw [ih.2 front key after (hfound ▸ hrest)]
    rfl

def NoHole (w : WordClass) (text : Text) : Prop := ∀ key, .hole key ∉ scan w text

lemma search_none_iff {text : Text} : search w text = none ↔ NoHole w text := by
  constructor
  · intro h key hmem
    rw [(scan_search text).1 h] at hmem
    obtain ⟨_, -, heq⟩ := mem_map.1 hmem
    cases heq
  intro h
  cases hfound : search w text with
  | none => rfl
  | some found =>
    obtain ⟨before, key, after⟩ := found
    have hscan := (scan_search text).2 before key after hfound
    exact absurd (hscan ▸ mem_append_right _ mem_cons_self) (h key)

lemma scan_of_noHole {text : Text} (h : NoHole w text) : scan w text = text.map .chr :=
  (scan_search text).1 (search_none_iff.2 h)

/-! ## Replacing a placeholder as a text -/

lemma replaceFuel_eq {old : Text} (hold : old ≠ []) (new : Text) {n m : Nat} {text : Text}
    (hn : text.length ≤ n) (hm : text.length ≤ m) :
    replaceFuel old new n text = replaceFuel old new m text := by
  induction n generalizing m text with
  | zero =>
    obtain rfl := length_eq_zero_iff.1 (Nat.le_zero.1 hn)
    cases m with
    | _ => rfl
  | succ n ih =>
    cases text with
    | nil =>
      cases m with
      | _ => rfl
    | cons c rest =>
      cases m with
      | zero => cases hm
      | succ m =>
        have hpos := length_pos_iff.2 hold
        have hdrop : ((c :: rest).drop old.length).length ≤ rest.length := by
          rw [length_drop, length_cons]
          omega
        rw [length_cons] at hn hm
        rw [replaceFuel, replaceFuel, ih (by omega) (by omega : _ ≤ m),
          ih (by omega) (by omega : rest.length ≤ m)]

lemma take_placeholder_iff {text key : Text} (hkey : IsKey w key) :
    text.take (placeholder key).length = placeholder key
      ↔ ∃ after, placeholderAt w text = some (key, after) := by
  constructor
  · intro h
    refine ⟨text.drop (placeholder key).length, placeholderAt_some_iff.2 ⟨hkey, ?_⟩⟩
    have := take_append_drop (placeholder key).length text
    rw [h] at this
    exact this.symm
  rintro ⟨after, hat⟩
  obtain ⟨-, rfl⟩ := placeholderAt_some_iff.1 hat
  exact take_left

lemma replaceAll_cons {old : Text} (hold : old ≠ []) (new : Text) (c : Char) (rest : Text) :
    replaceAll old new (c :: rest)
      = if (c :: rest).take old.length = old then
          new ++ replaceAll old new ((c :: rest).drop old.length)
        else c :: replaceAll old new rest := by
  have hpos := length_pos_iff.2 hold
  have hdrop : ((c :: rest).drop old.length).length ≤ rest.length := by
    rw [length_drop, length_cons]
    omega
  rw [replaceAll, length_cons, replaceFuel, replaceAll, replaceAll,
    replaceFuel_eq hold new hdrop le_rfl]

lemma replaceAll_copy (key new : Text) {text : Text} (h : ∀ c ∈ text, c ≠ '{') (rest : Text) :
    replaceAll (placeholder key) new (text ++ rest)
      = text ++ replaceAll (placeholder key) new rest := by
  induction text with
  | nil => rfl
  | cons c more ih =>
    rw [cons_append, replaceAll_cons (placeholder_ne_nil key), if_neg,
      ih (fun d hd => h d (mem_cons_of_mem c hd))]
    · rfl
    intro htake
    exact h c mem_cons_self (cons.inj htake).1

lemma IsKey.ne_brace {key : Text} (hkey : IsKey w key) : ∀ c ∈ key, c ≠ '{' := by
  rintro c hc rfl
  have := hkey.chars '{' hc
  rw [isKeyChar_brace.1] at this
  cases this

lemma replaceAll_placeholder {key : Text} (hkey : IsKey w key) (new text : Text) :
    replaceAll (placeholder key) new text
      = subPieces (fun other => if other = key then new else placeholder other) (scan w text) := by
  have hne := placeholder_ne_nil key
  induction text using scan_induction (w := w) with
  | nil => rfl
  | chr c rest hat ih =>
    rw [replaceAll_cons hne, if_neg, ih, scan_chr hat]
    · rfl
    intro htake
    obtain ⟨after, hsome⟩ := (take_placeholder_iff hkey).1 htake
    rw [hat] at hsome
    cases hsome
  | hole other after hother ih =>
    have hsub : ∀ f : Text → Text, subPieces f (.hole other :: scan w after)
        = f other ++ subPieces f (scan w after) := fun f => rfl
    rw [scan_hole hother, hsub, ← ih]
    by_cases heq : other = key
    · subst heq
      have htake := (take_placeholder_iff hkey).2 ⟨after, placeholderAt_placeholder hkey after⟩
      have hdrop : (placeholder other ++ after).drop (placeholder other).length = after :=
        drop_left
      rw [if_pos rfl]
      rw [placeholder_append] at htake hdrop ⊢
      rw [replaceAll_cons hne, if_pos htake, hdrop]
    rw [if_neg heq]
    have hcopy : ∀ c ∈ other ++ ['}', '}'], c ≠ '{' := by
      intro c hc
      rcases mem_append.1 hc with hc | hc
      · exact hother.ne_brace c hc
      rintro rfl
      exact absurd hc (by decide)
    -- neither brace of another placeholder begins this one
    have hfirst : ¬ (placeholder other ++ after).take (placeholder key).length
        = placeholder key := by
      intro htake
      obtain ⟨_, hsome⟩ := (take_placeholder_iff hkey).1 htake
      rw [placeholderAt_placeholder hother] at hsome
      exact heq (Prod.mk.inj (some.inj hsome)).1
    have hsecond : ¬ ('{' :: (other ++ ['}', '}'] ++ after)).take (placeholder key).length
        = placeholder key := by
      intro htake
      obtain ⟨d, rest, rfl⟩ := exists_cons_of_ne_nil hother.ne_nil
      exact hother.ne_brace d mem_cons_self (cons.inj (cons.inj htake).2).1
    have htext : placeholder other ++ after = '{' :: '{' :: (other ++ ['}', '}'] ++ after) := by
      simp only [placeholder, cons_append, nil_append, append_assoc]
    rw [htext] at hfirst ⊢
    rw [replaceAll_cons hne, if_neg hfirst, replaceAll_cons hne, if_neg hsecond,
      replaceAll_copy key new hcopy]
    simp only [placeholder, cons_append, nil_append, append_assoc]

/-! ## Texts that join with nothing behind them -/

def Sealed (w : WordClass) (text : Text) : Prop :=
  ∀ behind, scan w (text ++ behind) = scan w text ++ scan w behind

lemma Sealed.nil : Sealed w [] := fun _ => rfl

lemma Sealed.append {text other : Text} (h : Sealed w text) (hother : Sealed w other) :
    Sealed w (text ++ other) := by
  intro _
  rw [append_assoc, h, hother, h, append_assoc]

lemma Sealed.placeholder {key : Text} (hkey : IsKey w key) : Sealed w (placeholder key) := by
  intro _
  have hself := scan_hole hkey []
  rw [append_nil] at hself
  rw [scan_hole hkey, hself]
  rfl

lemma Sealed.of_ne {c : Char} (hc : c ≠ '{') : Sealed w [c] := by
  intro _
  rw [scan_of_ne hc [], singleton_append, scan_of_ne hc]
  rfl

lemma NoHole.append {text other : Text} (h : Sealed w text) (htext : NoHole w text)
    (hother : NoHole w other) : NoHole w (text ++ other) := by
  intro key hmem
  rw [h, mem_append] at hmem
  exact hmem.elim (htext key) (hother key)

end
end DeterminFlow.Workflow.Placeholders
