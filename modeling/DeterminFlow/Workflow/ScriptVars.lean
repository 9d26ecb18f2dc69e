/-
  Workflow.ScriptVars
  **VARIABLES IN THE OUTPUT OF A SCRIPT.**

  Both groups of `<WF_VAR>(.+?):(.+?)</WF_VAR>` want a character and neither
  leaves its line, so an empty value runs on into the next tag and one of
  several lines is not found.
-/
import DeterminFlow.Library.Dict
import DeterminFlow.Workflow.Conditions

namespace DeterminFlow.Workflow.ScriptVars

open Library PyText Workflow.Condition List Option

/-! ## The expressions -/

def openTag : Text := ['<', 'W', 'F', '_', 'V', 'A', 'R', '>']

def closeTag : Text := ['<', '/', 'W', 'F', '_', 'V', 'A', 'R', '>']

/-- `(.+?)` and the text `stop`, then the rest of the expression; the group so
far, and what is found with the whole group. -/
def lazyGroup {α : Type} (stop : Text) (rest : Text → Option α) (group : Text) :
    Text → Option (Text × α)
  | [] => none
  | c :: text =>
    match if group ≠ [] ∧ stop.isPrefixOf (c :: text) then rest ((c :: text).drop stop.length)
      else none with
    | some found => some (group, found)
    | none => if c = '\n' then none else lazyGroup stop rest (group ++ [c]) text

/-- `_WF_VAR_RE.match`: both groups, and the text behind the match. -/
def tagAt (text : Text) : Option (Text × Text × Text) :=
  if openTag.isPrefixOf text then
    lazyGroup [':'] (lazyGroup closeTag some []) [] (text.drop 8)
  else none

/-- `_WF_VAR_RE.finditer`, behind the characters that a match has used. -/
def finditer : Nat → Text → List (Text × Text)
  | _, [] => []
  | used + 1, _ :: rest => finditer used rest
  | 0, c :: rest =>
    match tagAt (c :: rest) with
    | some (key, value, after) => (key, value) :: finditer (rest.length - after.length) rest
    | none => finditer 0 rest

section
variable (w : WordClass)

/-- `_VAR_KEY_RE.match` on a text without space at its end. -/
def isVarKey : Text → Bool
  | [] => false
  | c :: rest => w.isWord c && rest.all fun c => w.isWord c || c = '-'

/-- What a match adds. -/
def assigned? (found : Text × Text) : Option (Text × Text) :=
  if isVarKey w (strip found.1) then some (strip found.1, strip found.2) else none

def parseWfVars (stdout : Text) : Dict Text Text :=
  Dict.update [] ((finditer 0 stdout).filterMap (assigned? w))

end

/-! ## Outputs -/

/-- What begins with an opening tag, and the text up to the next one. -/
inductive Segment where
  | tag (key value behind : Text)
  | malformed (body : Text)

def Segment.text : Segment → Text
  | tag key value behind => openTag ++ (key ++ ':' :: (value ++ (closeTag ++ behind)))
  | malformed body => openTag ++ body

def output (segments : List Segment) : Text := segments.flatMap Segment.text

def Segment.var? : Segment → Option (Text × Text)
  | tag key value _ => some (strip key, strip value)
  | malformed _ => none

section
variable (w : WordClass)

/-- A malformed tag is no well-formed one. -/
def Segment.Ok : Segment → Prop
  | tag key value behind => ':' ∉ key ∧ isVarKey w (strip key) = true ∧
      ¬ closeTag <:+: value ∧ ¬ openTag <:+: behind
  | malformed body => ¬ openTag <:+: body ∧ ∀ key rest, body = key ++ ':' :: rest →
      ':' ∉ key → isVarKey w (strip key) = true → ¬ closeTag <:+: rest

/-- For each key the value of its last tag, and no other key. -/
def Read (text : Text) (segments : List Segment) : Prop :=
  ∀ key, (parseWfVars w (text ++ output segments)).get? key =
    ((segments.filterMap Segment.var?).reverse.find? (·.1 = key)).map (·.2)

/-- A tag stands on one line and has a value; what the expression finds at a
malformed one ends before the next tag and has no valid key. -/
def Segment.Calm (next : Text) : Segment → Prop
  | tag key value _ => value ≠ [] ∧ '\n' ∉ key ∧ '\n' ∉ value
  | malformed body => ∀ found ∈ tagAt (openTag ++ (body ++ next)),
      next.length ≤ found.2.2.length ∧ assigned? w (found.1, found.2.1) = none

def Calm : List Segment → Prop
  | [] => True
  | segment :: rest => segment.Calm w (output rest) ∧ Calm rest

end

/-! ## One match -/

section
variable {α : Type} {stop group text s next : Text} {rest : Text → Option α} {first : Char}

lemma not_prefix (hfirst : first ∉ stop) (hno : ¬ (first :: stop) <:+: text)
    (hnext : ∀ c ∈ next.head?, c = first) (hs : s <:+ text) (hne : s ≠ []) :
    ¬ (first :: stop) <+: s ++ next := by
  intro h
  rcases prefix_or_prefix_of_prefix h (prefix_append s next) with hmark | ⟨q, hq⟩
  · exact hno (hmark.isInfix.trans hs.isInfix)
  -- it would begin in `s` and end behind it
  obtain ⟨c, s, rfl⟩ := exists_cons_of_ne_nil hne
  obtain ⟨rfl, rfl⟩ := cons.inj hq
  obtain ⟨r, hr⟩ := h
  obtain rfl : q ++ r = next := append_cancel_left ((append_assoc s q r).symm.trans (cons.inj hr).2)
  cases q with
  | nil => exact hno (by simpa using hs.isInfix)
  | cons d q => exact hfirst (by simp [hnext d rfl])

lemma lazyGroup_append {found : α} (hfirst : first ∉ stop) (hno : ¬ (first :: stop) <:+: text)
    (hline : '\n' ∉ text) (hne : group ++ text ≠ []) (hfound : rest next = some found) :
    lazyGroup (first :: stop) rest group (text ++ (first :: stop ++ next))
      = some (group ++ text, found) := by
  induction text generalizing group with
  | nil =>
    rw [append_nil] at hne ⊢
    have hprefix := isPrefixOf_iff_prefix.2 (prefix_append (first :: stop) next)
    have hdrop : (first :: (stop ++ next)).drop (first :: stop).length = next := drop_left
    rw [nil_append, cons_append, lazyGroup, if_pos ⟨hne, hprefix⟩, hdrop, hfound]
  | cons c text ih =>
    have hnext : ∀ c ∈ (first :: stop ++ next).head?, c = first := by
      rintro c ⟨⟩
      rfl
    have hc := not_prefix hfirst hno hnext suffix_rfl (cons_ne_nil _ _)
    rw [mem_cons, not_or] at hline
    rw [cons_append, lazyGroup, if_neg fun h => hc ( isPrefixOf_iff_prefix.1 h.2)]
    dsimp only
    rw [if_neg (Ne.symm hline.1), ih (fun h => hno (h.trans (suffix_cons c text).isInfix)) hline.2
      (by simp), append_assoc]
    rfl

lemma lazyGroup_suffix (after : α → Text) (hrest : ∀ t found, rest t = some found → after found <:+ t)
    {found : Text × α} (h : lazyGroup stop rest group text = some found) : after found.2 <:+ text := by
  induction text generalizing group with
  | nil => cases h
  | cons c text ih =>
    rw [lazyGroup] at h
    split at h
    · rename_i hfound
      obtain rfl := some.inj h
      split at hfound
      · exact (hrest _ _ hfound).trans (drop_suffix _ _)
      cases hfound
    split at h
    · cases h
    exact (ih h).trans (suffix_cons c text)

end

lemma tagAt_open {text : Text} {found : Text × Text × Text}
    (h : tagAt (openTag ++ text) = some found) : found.2.2 <:+ text := by
  refine lazyGroup_suffix Prod.snd (fun _ _ => ?_) h
  exact lazyGroup_suffix id fun _ _ heq => some.inj heq ▸ suffix_rfl

/-! ## All matches -/

lemma finditer_drop (used : Nat) (text : Text) :
    finditer used text = finditer 0 (text.drop used) := by
  induction text generalizing used with
  | nil => simp [finditer]
  | cons c rest ih =>
    cases used with
    | zero => rfl
    | succ used => exact ih used

lemma finditer_of_none {c : Char} {rest : Text} (h : tagAt (c :: rest) = none) :
    finditer 0 (c :: rest) = finditer 0 rest := by
  rw [finditer, h]

lemma finditer_open {text key value after : Text}
    (h : tagAt (openTag ++ text) = some (key, value, after)) :
    finditer 0 (openTag ++ text) = (key, value) :: finditer 0 after := by
  have hsuffix := (tagAt_open h).trans (suffix_append openTag.tail text)
  show finditer 0 ('<' :: (openTag.tail ++ text)) = _
  rw [finditer, show tagAt ('<' :: (openTag.tail ++ text)) = _ from h]
  show (key, value) :: finditer _ (openTag.tail ++ text) = _
  rw [finditer_drop, ← suffix_iff_eq_drop.1 hsuffix]

lemma finditer_skip {text next : Text} (h : ∀ s, s <:+ text → s ≠ [] → ¬ openTag <+: s ++ next) :
    finditer 0 (text ++ next) = finditer 0 next := by
  induction text with
  | nil => rfl
  | cons c rest ih =>
    have hc := h _ suffix_rfl (cons_ne_nil _ _)
    refine (finditer_of_none (if_neg fun hopen => hc ( isPrefixOf_iff_prefix.1 hopen))).trans ?_
    exact ih fun s hs => h s (hs.trans (suffix_cons c rest))

lemma head_output (segments : List Segment) : ∀ c ∈ (output segments).head?, c = '<' := by
  rcases segments with _ | ⟨_ | _, _⟩ <;> rintro c ⟨⟩ <;> rfl

lemma finditer_text {text : Text} {segments : List Segment} (h : ¬ openTag <:+: text) :
    finditer 0 (text ++ output segments) = finditer 0 (output segments) :=
  finditer_skip fun _ => not_prefix (by decide) h (head_output segments)

lemma finditer_malformed {body : Text} {segments : List Segment} (hno : ¬ openTag <:+: body)
    (h : tagAt (openTag ++ (body ++ output segments)) = none) :
    finditer 0 (openTag ++ (body ++ output segments)) = finditer 0 (output segments) := by
  have hne : ∀ (c : Char) (rest : Text), c ≠ '<' → finditer 0 (c :: rest) = finditer 0 rest :=
    fun c rest hc => finditer_of_none (if_neg fun hopen =>
      hc (cons_prefix_cons.1 ( isPrefixOf_iff_prefix.1 hopen)).1.symm)
  have hfirst := finditer_of_none h
  rw [← finditer_text hno]
  refine hfirst.trans ?_
  iterate 7 refine (hne _ _ (by decide)).trans ?_
  rfl

section
variable {w : WordClass}

/-- **The matches with a valid key are the tags.** -/
theorem filterMap_output {segments : List Segment} (hok : ∀ s ∈ segments, s.Ok w)
    (hcalm : Calm w segments) :
    (finditer 0 (output segments)).filterMap (assigned? w) = segments.filterMap Segment.var? := by
  induction segments with
  | nil => rfl
  | cons segment rest ih =>
    have ih := ih (fun s hs => hok s (mem_cons_of_mem _ hs)) hcalm.2
    have hok := hok segment mem_cons_self
    have hcalm := hcalm.1
    cases segment with
    | tag key value behind =>
      obtain ⟨hcolon, hkey, hclose, hopen⟩ := hok
      obtain ⟨hne, hlineKey, hlineValue⟩ := hcalm
      have hkeyNe : key ≠ [] := by
        rintro rfl
        cases hkey
      have htag : tagAt (openTag ++ (key ++ ':' :: (value ++ (closeTag ++ (behind ++ output rest)))))
          = some (key, value, behind ++ output rest) :=
        lazyGroup_append not_mem_nil (fun h => hcolon (h.subset mem_cons_self)) hlineKey hkeyNe
          (lazyGroup_append (by decide) hclose hlineValue hne rfl)
      have htext : output (.tag key value behind :: rest)
          = openTag ++ (key ++ ':' :: (value ++ (closeTag ++ (behind ++ output rest)))) := by
        simp [output, Segment.text]
      rw [htext, finditer_open htag, finditer_text hopen,
        filterMap_cons_some (show assigned? w (key, value) = _ from if_pos hkey), ih]
      rfl
    | malformed body =>
      have htext : output (.malformed body :: rest) = openTag ++ (body ++ output rest) := by
        simp [output, Segment.text]
      rw [htext]
      cases hfound : tagAt (openTag ++ (body ++ output rest)) with
      | none => rw [finditer_malformed hok.1 hfound, ih]; rfl
      | some found =>
        obtain ⟨hlength, hkey⟩ := hcalm _ hfound
        obtain ⟨key, value, after⟩ := found
        have hafter : after <:+ body ++ output rest := tagAt_open hfound
        obtain ⟨behind, rfl⟩ := suffix_of_suffix_length_le (suffix_append _ _) hafter hlength
        have hbehind : behind <:+ body := ((suffix_append_inj_of_length_eq rfl).1 hafter).1
        rw [finditer_open hfound, filterMap_cons_none hkey,
          finditer_text fun h => hok.1 (h.trans hbehind.isInfix), ih]
        rfl

/-- **Tags are read one by one** when each has a value and stands on one line
and no malformed one runs on. -/
theorem read_of_calm (w : WordClass) (text : Text) (segments : List Segment)
    (htext : ¬ openTag <:+: text) (hok : ∀ s ∈ segments, s.Ok w) (hcalm : Calm w segments) :
    (finditer 0 (text ++ output segments)).filterMap (assigned? w) = segments.filterMap Segment.var?
      ∧ Read w text segments := by
  have hall := (congrArg _ (finditer_text htext)).trans (filterMap_output hok hcalm)
  refine ⟨hall, fun _ => ?_⟩
  rw [parseWfVars, hall]
  exact (Dict.get?_foldl_set _ _ _ _ _).trans Option.or_none

theorem read_behind_malformed :
    Read asciiWords [] [.malformed ['x', '\n'], .tag ['a'] ['1', ':'] ['\n']] := by
  refine (read_of_calm asciiWords _ _ (by decide) ?_ ?_).2
  · refine forall_mem_cons.2 ⟨⟨by decide, fun key _ h => ?_⟩, forall_mem_singleton.2 ?_⟩
    · exact absurd (h ▸ mem_append_right key mem_cons_self : ':' ∈ ['x', '\n']) (by decide)
    exact ⟨by decide, by decide, by decide, by decide⟩
  exact ⟨nofun, ⟨by decide, by decide, by decide⟩, trivial⟩

/-- A tag without a value takes the next tag for its value. -/
theorem empty_value_runs_on : ¬ ∀ (text : Text) (segments : List Segment),
    ¬ openTag <:+: text → (∀ s ∈ segments, s.Ok asciiWords) → Read asciiWords text segments := by
  intro h
  have hread := h [] [.tag ['a'] [] [], .tag ['b'] ['1'] []] (by decide) (forall_mem_cons.2
    ⟨⟨by decide, by decide, by decide, by decide⟩, forall_mem_singleton.2
      ⟨by decide, by decide, by decide, by decide⟩⟩) ['b']
  exact absurd hread (by decide +kernel)

end
end DeterminFlow.Workflow.ScriptVars
