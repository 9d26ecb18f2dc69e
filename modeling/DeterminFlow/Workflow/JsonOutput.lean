/-
  Workflow.JsonOutput
  **THE JSON IN A MODEL'S ANSWER.**

  An answer that should be JSON often has prose around it.  The body is cut
  out by a scanner: from the first bracket to the one that closes it, with a
  stack of the brackets that are open and a flag for the inside of a string.
  Nothing behind the closing bracket is looked at, so what follows may hold
  any brackets and quotation marks.
-/
import DeterminFlow.Library.JsonText
import DeterminFlow.Library.PyText

namespace DeterminFlow.Workflow.JsonOutput

open Library.PyText Library.JsonText List

/-! ## The scanner -/

structure ScanState where
  /-- The brackets that are awaited, innermost first. -/
  stack : List Char
  inString : Bool
  escape : Bool
  deriving DecidableEq

def outside (stack : List Char) : ScanState where
  stack := stack
  inString := false
  escape := false

def inside (stack : List Char) : ScanState where
  stack := stack
  inString := true
  escape := false

/-- One turn of the loop of `_find_matching_bracket`: the next state, or
whether the character is the one that was looked for. -/
def scanChar (closing : Char) (s : ScanState) (ch : Char) : ScanState ⊕ Bool :=
  if s.inString then
    if s.escape then .inl { s with escape := false }
    else if ch = '\\' then .inl { s with escape := true }
    else if ch = '"' then .inl { s with inString := false }
    else .inl s
  else if ch = '"' then .inl { s with inString := true }
  else if ch = '{' ∨ ch = '[' then
    .inl { s with stack := (if ch = '{' then '}' else ']') :: s.stack }
  else if ch = '}' ∨ ch = ']' then
    match s.stack with
    | [] => .inr false
    | top :: rest =>
      if ch ≠ top then .inr false
      else if rest = [] ∧ ch = closing then .inr true
      else .inl { s with stack := rest }
  else .inl s

def scanBrackets (closing : Char) : ScanState → Nat → Text → Option Nat
  | _, _, [] => none
  | s, idx, ch :: rest =>
    match scanChar closing s ch with
    | .inl s' => scanBrackets closing s' (idx + 1) rest
    | .inr found => if found then some idx else none

/-- `_find_matching_bracket`; `none` stands for `-1`. -/
def findMatchingBracket (text : Text) (start : Nat) (closing : Char) : Option Nat :=
  scanBrackets closing (outside []) start (text.drop start)

/-- `text.find(ch)`. -/
def find? (ch : Char) (text : Text) : Option Nat := text.findIdx? (· == ch)

def startPosition? (text : Text) : Option (Nat × Char) :=
  match find? '{' text, find? '[' text with
  | some brace, some bracket => if bracket < brace then some (bracket, '[') else some (brace, '{')
  | some brace, none => some (brace, '{')
  | none, some bracket => some (bracket, '[')
  | none, none => none

def extractJsonBody (text : Text) : Text :=
  match startPosition? text with
  | none => strip text
  | some (start, opening) =>
    match findMatchingBracket text start (if opening = '{' then '}' else ']') with
    | none => strip (text.drop start)
    | some last => strip ((text.drop start).take (last + 1 - start))

/-! ## What the scanner passes over -/

def Passes (closing : Char) (s : ScanState) (text : Text) : Prop :=
  ∀ (idx : Nat) (rest : Text), scanBrackets closing s idx (text ++ rest) =
    scanBrackets closing s (idx + text.length) rest

variable {closing : Char} {stack : List Char}

lemma Passes.nil {s : ScanState} : Passes closing s [] := fun _ _ => rfl

lemma Passes.append {s : ScanState} {text other : Text} (h : Passes closing s text)
    (h' : Passes closing s other) : Passes closing s (text ++ other) := by
  intro _ _
  rw [append_assoc, h, h', length_append, Nat.add_assoc]

lemma Passes.cons {s : ScanState} {c : Char} {text : Text}
    (hc : scanChar closing s c = .inl s) (h : Passes closing s text) :
    Passes closing s (c :: text) := by
  intro idx rest
  show (match scanChar closing s c with
    | .inl s' => scanBrackets closing s' (idx + 1) (text ++ rest)
    | .inr found => if found then some idx else none) = _
  rw [hc]
  simp only
  rw [h, length_cons]
  congr 1
  omega

lemma scanChar_quiet {c : Char} (hc : isQuiet c = true) :
    scanChar closing (outside stack) c = .inl (outside stack) := by
  unfold isQuiet isBracket at hc
  simp only [Bool.and_eq_true, bne_iff_ne, Bool.not_eq_true', Bool.or_eq_false_iff,
    beq_eq_false_iff_ne] at hc
  obtain ⟨hquote, ⟨⟨hopen, hclose⟩, hopen'⟩, hclose'⟩ := hc
  unfold scanChar outside
  simp [hquote, hopen, hclose, hopen', hclose']

lemma passes_quiet {text : Text} (h : Quiet text) : Passes closing (outside stack) text := by
  induction text with
  | nil => exact Passes.nil
  | cons c rest ih =>
    exact Passes.cons (scanChar_quiet (h c mem_cons_self))
      (ih (fun d hd => h d (mem_cons_of_mem c hd)))

lemma scanChar_plain {c : Char} (hquote : c ≠ '"') (hslash : c ≠ '\\') :
    scanChar closing (inside stack) c = .inl (inside stack) := by
  unfold scanChar inside
  simp [hquote, hslash]

lemma isHex_ne {c : Char} (h : isHex c = true) : c ≠ '"' ∧ c ≠ '\\' := by
  constructor
  all_goals
    rintro rfl
    cases h

lemma Passes.escape {c : Char} {text : Text} (h : Passes closing (inside stack) text) :
    Passes closing (inside stack) ('\\' :: c :: text) := by
  intro idx rest
  show scanBrackets closing (inside stack) (idx + 1 + 1) (text ++ rest) = _
  rw [h, length_cons, length_cons]
  congr 1
  omega

lemma passes_body {body : Text} (h : Body body) : Passes closing (inside stack) body := by
  induction h with
  | nil => exact Passes.nil
  | plain hc _ ih =>
    unfold isPlain at hc
    simp only [Bool.and_eq_true, bne_iff_ne] at hc
    exact Passes.cons (scanChar_plain hc.1.1 hc.1.2) ih
  | escape _ _ ih => exact ih.escape
  | unicode ha hb hc hd _ ih =>
    apply Passes.escape
    apply Passes.cons (scanChar_plain (isHex_ne ha).1 (isHex_ne ha).2)
    apply Passes.cons (scanChar_plain (isHex_ne hb).1 (isHex_ne hb).2)
    apply Passes.cons (scanChar_plain (isHex_ne hc).1 (isHex_ne hc).2)
    exact Passes.cons (scanChar_plain (isHex_ne hd).1 (isHex_ne hd).2) ih

lemma passes_quoted {body : Text} (h : Body body) :
    Passes closing (outside stack) (quoted body) := by
  intro idx rest
  show scanBrackets closing (inside stack) (idx + 1) (body ++ ['"'] ++ rest) = _
  rw [append_assoc, passes_body h]
  show scanBrackets closing (outside stack) (idx + 1 + body.length + 1) rest = _
  unfold quoted
  rw [length_cons, length_append, length_singleton]
  congr 1
  omega

/-- The two kinds of brackets. -/
inductive Pair : Char → Char → Prop where
  | bracket : Pair '[' ']'
  | brace : Pair '{' '}'

lemma scanBrackets_opening {opening close : Char} (h : Pair opening close) (stack : List Char)
    (idx : Nat) (rest : Text) : scanBrackets closing (outside stack) idx (opening :: rest) =
      scanBrackets closing (outside (close :: stack)) (idx + 1) rest := by
  cases h <;> rfl

lemma scanBrackets_closing {opening close : Char} (h : Pair opening close) (hne : stack ≠ [])
    (idx : Nat) (rest : Text) : scanBrackets closing (outside (close :: stack)) idx (close :: rest) =
      scanBrackets closing (outside stack) (idx + 1) rest := by
  cases h <;> simp [scanBrackets, scanChar, outside, hne]

lemma scanBrackets_last {opening close : Char} (h : Pair opening close) (idx : Nat) (rest : Text) :
    scanBrackets close (outside [close]) idx (close :: rest) = some idx := by
  cases h <;> rfl

lemma Passes.bracketed {opening close : Char} {text : Text} (hpair : Pair opening close)
    (hne : stack ≠ []) (h : Passes closing (outside (close :: stack)) text) :
    Passes closing (outside stack) (opening :: (text ++ [close])) := by
  intro _ _
  rw [cons_append, scanBrackets_opening hpair, append_assoc, h, singleton_append,
    scanBrackets_closing hpair hne, length_cons, length_append, length_singleton]
  congr 1
  omega

lemma scan_json {kind : Kind} {text : Text} (h : Json kind text) :
    ∀ {stack : List Char}, stack ≠ [] → Passes closing (outside stack) text := by
  induction h with
  | constant h => exact fun _ => passes_quiet h.quiet
  | number h => exact fun _ => passes_quiet h.quiet
  | string h => exact fun _ => passes_quoted h
  | emptyArray h => exact fun hne => Passes.bracketed .bracket hne (passes_quiet h.quiet)
  | array _ ih => exact fun hne => Passes.bracketed .bracket hne (ih (cons_ne_nil _ _))
  | emptyObject h => exact fun hne => Passes.bracketed .brace hne (passes_quiet h.quiet)
  | object _ ih => exact fun hne => Passes.bracketed .brace hne (ih (cons_ne_nil _ _))
  | element hbefore _ hafter ih =>
    intro stack hne
    exact (passes_quiet hbefore.quiet).append ((ih hne).append (passes_quiet hafter.quiet))
  | elements hbefore _ hafter _ ih ihrest =>
    intro stack hne
    have hcomma := Passes.cons (scanChar_quiet (c := ',') rfl) (ihrest hne)
    exact (passes_quiet hbefore.quiet).append ((ih hne).append
      ((passes_quiet hafter.quiet).append hcomma))
  | member hbefore hkey hcolon hspace _ hafter ih =>
    intro stack hne
    have hvalue := (passes_quiet hspace.quiet).append ((ih hne).append (passes_quiet hafter.quiet))
    have hpoint := (passes_quiet hcolon.quiet).append
      (Passes.cons (scanChar_quiet (c := ':') rfl) hvalue)
    exact (passes_quiet hbefore.quiet).append ((passes_quoted hkey).append hpoint)
  | members hbefore hkey hcolon hspace _ hafter _ ih ihrest =>
    intro stack hne
    have hcomma := Passes.cons (scanChar_quiet (c := ',') rfl) (ihrest hne)
    have hvalue := (passes_quiet hspace.quiet).append
      ((ih hne).append ((passes_quiet hafter.quiet).append hcomma))
    have hpoint := (passes_quiet hcolon.quiet).append
      (Passes.cons (scanChar_quiet (c := ':') rfl) hvalue)
    exact (passes_quiet hbefore.quiet).append ((passes_quoted hkey).append hpoint)

/-! ## Where the body begins and ends -/

lemma container_cases {text : Text} (h : Container text) :
    ∃ opening close inner, Pair opening close ∧ text = opening :: (inner ++ [close])
      ∧ ∀ {closing : Char}, Passes closing (outside [close]) inner := by
  cases h with
  | emptyArray h => exact ⟨'[', ']', _, .bracket, rfl, passes_quiet h.quiet⟩
  | array h => exact ⟨'[', ']', _, .bracket, rfl, scan_json h (cons_ne_nil _ _)⟩
  | emptyObject h => exact ⟨'{', '}', _, .brace, rfl, passes_quiet h.quiet⟩
  | object h => exact ⟨'{', '}', _, .brace, rfl, scan_json h (cons_ne_nil _ _)⟩

def NoOpening (text : Text) : Prop := ∀ c ∈ text, c ≠ '{' ∧ c ≠ '['

lemma findIdx?_behind {p : Char → Bool} {before rest : Text} (h : ∀ c ∈ before, p c = false) :
    (before ++ rest).findIdx? p = (rest.findIdx? p).map (· + before.length) := by
  rw [findIdx?_append, List.findIdx?_eq_none_iff.2 h, Option.none_or]

lemma startPosition?_behind {before rest : Text} {opening close : Char} (h : NoOpening before)
    (hpair : Pair opening close) :
    startPosition? (before ++ opening :: rest) = some (before.length, opening) := by
  have hbrace : find? '{' (before ++ opening :: rest) =
      ((opening :: rest).findIdx? (· == '{')).map (· + before.length) :=
    findIdx?_behind (fun c hc => by simp [(h c hc).1])
  have hbracket : find? '[' (before ++ opening :: rest) =
      ((opening :: rest).findIdx? (· == '[')).map (· + before.length) :=
    findIdx?_behind (fun c hc => by simp [(h c hc).2])
  unfold startPosition?
  rw [hbrace, hbracket]
  cases hpair with
  | bracket =>
    -- a brace can only stand behind the bracket
    have hfirst : ('[' :: rest).findIdx? (· == '[') = some 0 := rfl
    have hother : ('[' :: rest).findIdx? (· == '{') = (rest.findIdx? (· == '{')).map (· + 1) :=
      findIdx?_cons
    rw [hfirst, hother]
    cases rest.findIdx? (· == '{') with
    | _ => simp
  | brace =>
    have hfirst : ('{' :: rest).findIdx? (· == '{') = some 0 := rfl
    have hother : ('{' :: rest).findIdx? (· == '[') = (rest.findIdx? (· == '[')).map (· + 1) :=
      findIdx?_cons
    rw [hfirst, hother]
    cases rest.findIdx? (· == '[') with
    | _ => simp

lemma Pair.closing_eq {opening close : Char} (h : Pair opening close) :
    (if opening = '{' then '}' else ']') = close := by
  cases h <;> rfl

lemma Pair.isSpace {opening close : Char} (h : Pair opening close) :
    isSpace opening = false ∧ isSpace close = false := by
  cases h <;> exact ⟨rfl, rfl⟩

/-- **The body is the text of the array or object**: prose without opening
brackets before it, and any text behind it, are cut off. -/
theorem extractJsonBody_container {before body behind : Text} (hbefore : NoOpening before)
    (hbody : Container body) : extractJsonBody (before ++ (body ++ behind)) = body := by
  obtain ⟨opening, close, inner, hpair, rfl, hpasses⟩ := container_cases hbody
  have hstart := @startPosition?_behind _ (inner ++ [close] ++ behind) _ _ hbefore hpair
  have hdrop : (before ++ (opening :: (inner ++ [close]) ++ behind)).drop before.length =
      opening :: (inner ++ (close :: behind)) := by
    rw [drop_left, cons_append, append_assoc, singleton_append]
  have hfound : findMatchingBracket (before ++ (opening :: (inner ++ [close]) ++ behind))
      before.length close = some (before.length + 1 + inner.length) := by
    unfold findMatchingBracket
    rw [hdrop, scanBrackets_opening hpair, hpasses, scanBrackets_last hpair]
  have htake : (opening :: (inner ++ (close :: behind))).take
      (before.length + 1 + inner.length + 1 - before.length) = opening :: (inner ++ [close]) := by
    have hlength : before.length + 1 + inner.length + 1 - before.length
        = (opening :: (inner ++ [close])).length := by
      simp only [length_cons, length_append, length_nil]
      omega
    rw [hlength, ← singleton_append (l := behind), ← append_assoc, ← cons_append]
    exact take_left
  unfold extractJsonBody
  rw [← cons_append] at hstart
  rw [hstart]
  simp only [hpair.closing_eq]
  rw [hfound]
  simp only
  rw [hdrop, htake]
  apply strip_eq_self
  · intro c hc
    obtain rfl : opening = c := Option.some.inj hc
    exact hpair.isSpace.1
  intro c hc
  rw [← cons_append, getLast?_append_of_ne_nil _ (cons_ne_nil _ _)] at hc
  obtain rfl : close = c := Option.some.inj hc
  exact hpair.isSpace.2

/-- A bracket and a quotation mark in a string, and more of them behind the body. -/
theorem extractJsonBody_answer :
    extractJsonBody ("So: ".toList ++ ("\x7b\"a\":[\"]\"]\x7d".toList ++ " ]\" \x7d".toList)) =
      "\x7b\"a\":[\"]\"]\x7d".toList := by
  have hstring : Json .value (quoted [']']) := .string (.plain rfl .nil)
  have hblank : Blank [] := nofun
  have harray : Json .value "[\"]\"]".toList := .array (.element hblank hstring hblank)
  have hmember : Json .members "\"a\":[\"]\"]".toList :=
    .member hblank (.plain rfl .nil : Body ['a']) hblank hblank harray hblank
  apply extractJsonBody_container
  · exact fun _ hc => ⟨by rintro rfl; exact absurd hc (by decide), by rintro rfl; exact absurd hc (by decide)⟩
  exact Container.object hmember

end DeterminFlow.Workflow.JsonOutput
