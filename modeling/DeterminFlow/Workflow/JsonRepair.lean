/-
  Workflow.JsonRepair
  **REPAIRING THE JSON OF AN ANSWER.**

  `validate_and_format_json` reads an answer as JSON; when that fails the text
  goes through four passes that know nothing of strings: the Markdown fence, the
  quotes, the body, the trailing commas.  Lines that look like no JSON are taken
  out last.

  Every pass only takes characters away or puts one quote for another, so a pass
  that touches the JSON text leaves less than the value needs.
-/
import DeterminFlow.Library.JsonWeight
import DeterminFlow.Workflow.JsonOutput

namespace DeterminFlow.Workflow.JsonOutput

open Library PyText JsonText List
open Library.JsonCodec

/-! ## Lines -/

/-- The characters `str.splitlines()` ends a line at. -/
def isLineBreak (c : Char) : Bool :=
  c ∈ ['\n', '\x0b', '\x0c', '\r', '\x1c', '\x1d', '\x1e', '\u0085', '\u2028', '\u2029']

/-- `text.splitlines()`; of a carriage return with a line feed behind it the
line feed ends the line. -/
def splitLines : Text → List Text
  | [] => []
  | c :: rest =>
    if isLineBreak c then
      if c = '\r' && rest.head? = some '\n' then splitLines rest else [] :: splitLines rest
    else
      match splitLines rest with
      | [] => [[c]]
      | line :: lines => (c :: line) :: lines

/-- `"\n".join(lines)` -/
def joinLines : List Text → Text
  | [] => []
  | line :: lines => line ++ lines.flatMap (fun other => '\n' :: other)

/-! ## The passes -/

def fenceMark : Text := "```".toList

/-- `line.strip().startswith("```")` -/
def startsFence (line : Text) : Bool := fenceMark.isPrefixOf (strip line)

/-- The text behind `(?:json|JSON)?`. -/
def dropLanguage (text : Text) : Text :=
  match literal? "json".toList text with
  | some rest => rest
  | none => (literal? "JSON".toList text).getD text

def dropLastBreak (text : Text) : Text :=
  if text.getLast? = some '\n' then text.dropLast else text

/-- The text before `mark` at its end. -/
def before? (mark text : Text) : Option Text :=
  if mark.isSuffixOf text then some (text.take (text.length - mark.length)) else none

/-- The group of the pattern of a fenced text, when all of the text matches it.
Language and blanks are matched greedily; none of them can be a backtick, so
they never reach into the closing fence. -/
def fenceBody? (text : Text) : Option Text := do
  let rest ← literal? fenceMark text
  let inner ← before? fenceMark rest
  return dropLastBreak ((dropLanguage inner).dropWhile isSpace)

def stripMarkdownFence (text : Text) : Text :=
  match fenceBody? (strip text) with
  | some body => strip body
  | none => strip (joinLines ((splitLines (strip text)).filter (fun line => !startsFence line)))

def isCurly (c : Char) : Bool := c ∈ ['“', '”', '＂', '‘', '’']

def normalizeQuote (c : Char) : Char :=
  if c ∈ ['“', '”', '＂'] then '"' else if c ∈ ['‘', '’'] then '\x27' else c

def normalizeQuotes (text : Text) : Text := text.map normalizeQuote

def closesAfterSpaces : Text → Bool
  | [] => false
  | c :: rest => if isSpace c then closesAfterSpaces rest else c = '}' || c = ']'

/-- One `re.sub` of commas with blanks before a closing bracket; the flag is set
while the blanks are passed. -/
def removeCommas : Bool → Text → Text
  | _, [] => []
  | skipping, c :: rest =>
    if skipping && isSpace c then removeCommas true rest
    else if c = ',' && closesAfterSpaces rest then removeCommas true rest
    else c :: removeCommas false rest

/-- The loop of `_remove_trailing_commas`. -/
def commaLoop : Nat → Text → Text
  | 0, text => text
  | turns + 1, text =>
    if removeCommas false text = text then text else commaLoop turns (removeCommas false text)

/-- `_remove_trailing_commas`: every turn but the last removes a comma. -/
def removeTrailingCommas (text : Text) : Text := commaLoop (text.length + 1) text

/-- `-?\d+(?:\.\d+)?[,]?`, as a full match. -/
def isNumberLine (text : Text) : Bool :=
  let unsigned := if text.head? = some '-' then text.tail else text
  let behind := unsigned.dropWhile isDecimal
  let ends := fun rest : Text => rest = [] || rest = [',']
  let fraction := behind.tail.dropWhile isDecimal
  !(unsigned.takeWhile isDecimal).isEmpty
    && (ends behind || (behind.head? = some '.' && !(behind.tail.takeWhile isDecimal).isEmpty
      && ends fraction))

def isObviousOrphanLine (stripped : Text) : Bool :=
  if stripped.isEmpty then false
  else if stripped.head?.any (fun c => c ∈ ['"', '{', '}', '[', ']']) then false
  else if isNumberLine stripped then false
  else if ["true".toList, "false".toList, "null".toList, "true,".toList,
      "false,".toList, "null,".toList].contains stripped then false
  else !(stripped.contains ':')

def removeObviousOrphanLines (text : Text) : Text :=
  if (splitLines text).any (fun line => isObviousOrphanLine (strip line)) then
    joinLines ((splitLines text).filter (fun line => !isObviousOrphanLine (strip line)))
  else text

section
variable {F : Type} (floats : FloatCodec F)

def tryLoads (text : Text) : Bool := (loads floats text).isSome

def fourPasses (text : Text) : Text :=
  removeTrailingCommas (extractJsonBody (normalizeQuotes (stripMarkdownFence (strip text))))

def repairsOf (text : Text) : List String :=
  let candidate := strip text
  let unfenced := stripMarkdownFence candidate
  let normalized := normalizeQuotes unfenced
  let extracted := extractJsonBody normalized
  (if unfenced = candidate then [] else ["strip_markdown_fence"])
    ++ (if normalized = unfenced then [] else ["normalize_quotes"])
    ++ (if extracted = normalized then [] else ["extract_json_body"])
    ++ (if removeTrailingCommas extracted = extracted then [] else ["remove_trailing_commas"])

def safeRepairJsonText (text : Text) : Text × List String :=
  let candidate := fourPasses text
  if tryLoads floats candidate then (candidate, repairsOf text)
  else
    let withoutOrphans := removeObviousOrphanLines candidate
    if withoutOrphans = candidate then (candidate, repairsOf text)
    else if tryLoads floats (removeTrailingCommas withoutOrphans) then
      (removeTrailingCommas withoutOrphans, repairsOf text ++ ["remove_orphan_lines"])
    else (candidate, repairsOf text)

/-- `JsonValidationResult`, without its error text. -/
structure JsonValidationResult (F : Type) where
  success : Bool
  formatted : Text
  data : Option (PyJson F)
  repairedText : Text
  repairs : List String

def newline (level : Nat) : Text := '\n' :: List.replicate (2 * level) ' '

mutual

/-- `json.dumps(value, ensure_ascii=False, indent=2)` -/
def dumpsIndented (level : Nat) : PyJson F → Text
  | .list (x :: rest) =>
    '[' :: (newline (level + 1) ++ (dumpsIndented (level + 1) x
      ++ (indentedRest (level + 1) rest ++ (newline level ++ [']']))))
  | .dict ((key, x) :: rest) =>
    '{' :: (newline (level + 1) ++ (stringText key.toList ++ (": ".toList
      ++ (dumpsIndented (level + 1) x
      ++ (indentedEntries (level + 1) rest ++ (newline level ++ ['}']))))))
  | .list [] => "[]".toList
  | .dict [] => "\x7b\x7d".toList
  | .null => "null".toList
  | .bool true => "true".toList
  | .bool false => "false".toList
  | .int i => intText i
  | .float f => floats.text f
  | .str s => stringText s.toList

def indentedRest (level : Nat) : List (PyJson F) → Text
  | [] => []
  | x :: rest => ',' :: (newline level ++ (dumpsIndented level x ++ indentedRest level rest))

def indentedEntries (level : Nat) : List (String × PyJson F) → Text
  | [] => []
  | (key, x) :: rest =>
    ',' :: (newline level ++ (stringText key.toList ++ (": ".toList
      ++ (dumpsIndented level x ++ indentedEntries level rest))))

end

def validResult (text : Text) (repairs : List String) (v : PyJson F) : JsonValidationResult F where
  success := true
  formatted := dumpsIndented floats 0 v
  data := some v
  repairedText := text
  repairs := repairs

def failedResult (text : Text) (repairs : List String) : JsonValidationResult F where
  success := false
  formatted := []
  data := none
  repairedText := text
  repairs := repairs

def validateAndFormatJson (repair : Bool) (text : Text) : JsonValidationResult F :=
  match loads floats text with
  | some v => validResult floats text [] v
  | none =>
    if repair then
      let candidate := safeRepairJsonText floats text
      match loads floats candidate.1 with
      | some v => validResult floats candidate.1 candidate.2 v
      | none => failedResult candidate.1 candidate.2
    else failedResult text []

end

/-! ## What the passes leave -/

def core (text : Text) : Text := text.filter isCounted

lemma total_cost (text : Text) : total cost text = (core text).length := by
  induction text with
  | nil => rfl
  | cons c rest ih =>
    rw [total_cons, ih, core, core, filter_cons, cost]
    split
    · rw [length_cons]
      omega
    omega

lemma core_append (text other : Text) : core (text ++ other) = core text ++ core other :=
  filter_append text other

lemma core_sublist {text other : Text} (h : text.Sublist other) :
    (core text).Sublist (core other) := h.filter isCounted

lemma strip_sublist (text : Text) : (strip text).Sublist text := by
  have hback : (((text.dropWhile isSpace).reverse.dropWhile isSpace).reverse).Sublist
      (text.dropWhile isSpace).reverse.reverse :=
    (dropWhile_sublist isSpace).reverse
  rw [reverse_reverse] at hback
  exact hback.trans (dropWhile_sublist isSpace)

lemma removeCommas_sublist (text : Text) :
    ∀ skipping : Bool, (removeCommas skipping text).Sublist text := by
  induction text with
  | nil => exact fun _ => List.Sublist.slnil
  | cons c rest ih =>
    intro skipping
    rw [removeCommas]
    split
    · exact (ih true).cons c
    split
    · exact (ih true).cons c
    exact (ih false).cons_cons c

lemma commaLoop_sublist (turns : Nat) : ∀ text : Text, (commaLoop turns text).Sublist text := by
  induction turns with
  | zero => exact fun text => List.Sublist.refl text
  | succ turns ih =>
    intro text
    rw [commaLoop]
    split
    · exact List.Sublist.refl text
    exact (ih _).trans (removeCommas_sublist text false)

lemma removeTrailingCommas_sublist (text : Text) : (removeTrailingCommas text).Sublist text :=
  commaLoop_sublist _ text

lemma removeCommas_lt (text : Text) :
    removeCommas false text = text ∨ total cost (removeCommas false text) < total cost text := by
  induction text with
  | nil => exact .inl rfl
  | cons c rest ih =>
    rw [removeCommas, Bool.false_and, if_neg Bool.false_ne_true]
    split
    · rename_i hcomma
      have hc : c = ',' := of_decide_eq_true (Bool.and_eq_true_iff.1 hcomma).1
      have hone : cost ',' = 1 := by decide
      have hle := (core_sublist (removeCommas_sublist rest true)).length_le
      rw [← total_cost, ← total_cost] at hle
      rw [hc, total_cons, hone]
      exact .inr (by omega)
    cases ih with
    | inl heq => exact .inl (congrArg (List.cons c) heq)
    | inr =>
      rw [total_cons, total_cons]
      exact .inr (by omega)

lemma removeTrailingCommas_eq {text : Text} (h : removeCommas false text = text) :
    removeTrailingCommas text = text := by
  rw [removeTrailingCommas, commaLoop, if_pos h]

lemma removeTrailingCommas_lt {text : Text} (h : removeCommas false text ≠ text) :
    total cost (removeTrailingCommas text) < total cost text := by
  have hlt : total cost (removeCommas false text) < total cost text := by
    cases removeCommas_lt text with
    | inl heq => exact absurd heq h
    | inr hlt => exact hlt
  have hle := (core_sublist (commaLoop_sublist text.length (removeCommas false text))).length_le
  rw [← total_cost, ← total_cost] at hle
  rw [removeTrailingCommas, commaLoop, if_neg h]
  omega

lemma extractJsonBody_sublist (text : Text) : (extractJsonBody text).Sublist text := by
  unfold extractJsonBody
  split
  · exact strip_sublist text
  split
  · exact (strip_sublist _).trans (drop_sublist _ _)
  exact (strip_sublist _).trans ((take_sublist _ _).trans (drop_sublist _ _))

lemma splitLines_sublist (text : Text) :
    ((splitLines text).flatMap id).Sublist (text.filter (fun c => !isLineBreak c)) := by
  induction text with
  | nil => exact List.Sublist.slnil
  | cons c rest ih =>
    rw [splitLines]
    split
    · rename_i hbreak
      rw [filter_cons_of_neg (by simp [hbreak])]
      split
      all_goals exact ih
    rename_i hno
    rw [filter_cons_of_pos (by simp [hno])]
    cases hlines : splitLines rest with
    | nil => exact (nil_sublist _).cons_cons c
    | cons =>
      rw [hlines] at ih
      exact ih.cons_cons c

lemma core_joinLines (lines : List Text) : core (joinLines lines) = core (lines.flatMap id) := by
  cases lines with
  | nil => rfl
  | cons line lines =>
    have hrest : core (lines.flatMap (fun other => '\n' :: other)) = core (lines.flatMap id) := by
      induction lines with
      | nil => rfl
      | cons other others ih =>
        have hbreak : core ('\n' :: other) = core other := rfl
        rw [flatMap_cons, flatMap_cons, core_append, core_append, ih, hbreak]
        rfl
    rw [joinLines, flatMap_cons, core_append, core_append, hrest]
    rfl

lemma flatMap_filter_sublist (lines : List Text) (keep : Text → Bool) :
    ((lines.filter keep).flatMap id).Sublist (lines.flatMap id) := by
  induction lines with
  | nil => exact List.Sublist.slnil
  | cons line lines ih =>
    rw [filter_cons]
    split
    · rw [flatMap_cons, flatMap_cons]
      exact List.Sublist.append (.refl _) ih
    rw [flatMap_cons]
    exact ih.trans (sublist_append_right _ _)

lemma core_someLines (text : Text) (keep : Text → Bool) :
    (core (joinLines ((splitLines text).filter keep))).Sublist
      (core (text.filter (fun c => !isLineBreak c))) := by
  rw [core_joinLines]
  exact core_sublist ((flatMap_filter_sublist _ keep).trans (splitLines_sublist text))

lemma core_removeObviousOrphanLines (text : Text) :
    (core (removeObviousOrphanLines text)).Sublist (core text) := by
  unfold removeObviousOrphanLines
  split
  · exact (core_someLines text _).trans (core_sublist filter_sublist)
  exact .refl _

lemma safeRepair_cases {F : Type} (floats : FloatCodec F) (text : Text) :
    (safeRepairJsonText floats text).1 = fourPasses text
      ∨ (safeRepairJsonText floats text).1
        = removeTrailingCommas (removeObviousOrphanLines (fourPasses text)) := by
  by_cases htry : tryLoads floats (fourPasses text) = true
  · left
    simp only [safeRepairJsonText, htry, if_true]
  by_cases hsame : removeObviousOrphanLines (fourPasses text) = fourPasses text
  · left
    simp only [safeRepairJsonText, htry, hsame, if_true, if_false, Bool.false_eq_true]
  by_cases hagain : tryLoads floats
      (removeTrailingCommas (removeObviousOrphanLines (fourPasses text))) = true
  · right
    simp only [safeRepairJsonText, htry, hsame, hagain, if_true, if_false, Bool.false_eq_true]
  left
  simp only [safeRepairJsonText, htry, hsame, hagain, if_false, Bool.false_eq_true]

lemma core_final {F : Type} (floats : FloatCodec F) (text : Text) :
    (core (safeRepairJsonText floats text).1).Sublist (core (fourPasses text)) := by
  cases safeRepair_cases floats text with
  | inl h => rw [h]
  | inr h =>
    rw [h]
    exact (core_sublist (removeTrailingCommas_sublist _)).trans (core_removeObviousOrphanLines _)

lemma isCounted_normalizeQuote (c : Char) : isCounted (normalizeQuote c) = isCounted c := by
  unfold normalizeQuote
  have hdouble : ∀ d ∈ ['“', '”', '＂'], isCounted '"' = isCounted d := by decide
  have hsingle : ∀ d ∈ ['‘', '’'], isCounted '\x27' = isCounted d := by decide
  split
  · exact hdouble c ‹_›
  split
  · exact hsingle c ‹_›
  rfl

lemma core_normalizeQuotes (text : Text) :
    core (normalizeQuotes text) = (core text).map normalizeQuote := by
  rw [core, core, normalizeQuotes, filter_map]
  congr 1
  exact filter_congr (fun c _ => isCounted_normalizeQuote c)

lemma core_safeRepair {F : Type} (floats : FloatCodec F) (text : Text) :
    (core (safeRepairJsonText floats text).1).Sublist
      ((core (stripMarkdownFence (strip text))).map normalizeQuote) := by
  rw [← core_normalizeQuotes]
  exact (core_final floats text).trans (core_sublist
    ((removeTrailingCommas_sublist _).trans (extractJsonBody_sublist _)))

/-! ### Quotes -/

def NoCurly (text : Text) : Prop := ∀ c ∈ text, isCurly c = false

lemma isCurly_normalizeQuote (c : Char) : isCurly (normalizeQuote c) = false := by
  unfold normalizeQuote
  split
  · decide
  split
  · decide
  rename_i hdouble hsingle
  have hno : c ∉ ['“', '”', '＂', '‘', '’'] := by
    intro hmem
    rcases mem_append.1 (show c ∈ ['“', '”', '＂'] ++ ['‘', '’'] from hmem) with h | h
    · exact hdouble h
    exact hsingle h
  exact decide_eq_false hno

lemma normalizeQuote_eq {c : Char} (h : isCurly c = false) : normalizeQuote c = c := by
  have hno : c ∉ ['“', '”', '＂', '‘', '’'] := of_decide_eq_false h
  unfold normalizeQuote
  rw [if_neg (fun hmem => hno (mem_append_left ['‘', '’'] hmem)),
    if_neg (fun hmem => hno (mem_append_right ['“', '”', '＂'] hmem))]

lemma normalizeQuotes_eq {text : Text} (h : NoCurly text) : normalizeQuotes text = text := by
  induction text with
  | nil => rfl
  | cons c rest ih =>
    have hrest := ih (fun d hd => h d (mem_cons_of_mem c hd))
    rw [normalizeQuotes] at hrest ⊢
    rw [map_cons, hrest, normalizeQuote_eq (h c mem_cons_self)]

lemma noCurly_normalizeQuotes (text : Text) : NoCurly (normalizeQuotes text) := by
  intro _ hc
  obtain ⟨d, -, hd⟩ := mem_map.1 hc
  rw [← hd]
  exact isCurly_normalizeQuote d

lemma NoCurly.sublist {text other : Text} (h : NoCurly other) (hsub : text.Sublist other) :
    NoCurly text := fun c hc => h c (hsub.subset hc)

lemma mem_joinLines {lines : List Text} {c : Char} (h : c ∈ joinLines lines) :
    c = '\n' ∨ ∃ line ∈ lines, c ∈ line := by
  cases lines with
  | nil => cases h
  | cons line =>
    rw [joinLines] at h
    cases mem_append.1 h with
    | inl hline => exact .inr ⟨line, mem_cons_self, hline⟩
    | inr hothers =>
      obtain ⟨other, hother, hc⟩ := mem_flatMap.1 hothers
      cases mem_cons.1 hc with
      | inl heq => exact .inl heq
      | inr hc => exact .inr ⟨other, mem_cons_of_mem line hother, hc⟩

lemma mem_of_splitLines {text line : Text} (h : line ∈ splitLines text) {c : Char}
    (hc : c ∈ line) : c ∈ text := by
  have hmem : c ∈ (splitLines text).flatMap id := mem_flatMap.2 ⟨line, h, hc⟩
  exact mem_of_mem_filter ((splitLines_sublist text).subset hmem)

lemma noCurly_final {F : Type} (floats : FloatCodec F) (text : Text) :
    NoCurly (safeRepairJsonText floats text).1 := by
  have hpasses : NoCurly (fourPasses text) :=
    (noCurly_normalizeQuotes (stripMarkdownFence (strip text))).sublist
      ((removeTrailingCommas_sublist _).trans (extractJsonBody_sublist _))
  cases safeRepair_cases floats text with
  | inl h => rw [h]; exact hpasses
  | inr h =>
    rw [h]
    have horphans : NoCurly (removeObviousOrphanLines (fourPasses text)) := by
      unfold removeObviousOrphanLines
      split
      · intro c hc
        cases mem_joinLines hc with
        | inl hbreak => rw [hbreak]; decide
        | inr hline =>
          obtain ⟨_, hmem, hc⟩ := hline
          exact hpasses c (mem_of_splitLines (mem_of_mem_filter hmem) hc)
      exact hpasses
    exact horphans.sublist (removeTrailingCommas_sublist _)

end DeterminFlow.Workflow.JsonOutput
