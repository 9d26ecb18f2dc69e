/-
  Workflow.Conditions
  **BRANCH CONDITIONS.**

  `evaluate_condition` splits a simple comparison at its operator, and lexes and
  parses an expression in which AND, OR or NOT stands as a word.  The two ways
  read an operand differently: one takes the text, the other its tokens.
-/
import Mathlib.Data.Bool.AllAny
import DeterminFlow.Workflow.ConditionParser

namespace DeterminFlow.Workflow.Condition

open Library.PyText List Option

/-! ## The lexer -/

/-- `[a-zA-Z_]` -/
def isWordStart (c : Char) : Bool :=
  ('a' ≤ c && c ≤ 'z') || ('A' ≤ c && c ≤ 'Z') || c = '_'

/-- `\w`: what it is on ASCII characters, and that it is no space. -/
structure WordClass where
  isWord : Char → Bool
  ascii : ∀ c : Char, c.toNat < 128 → isWord c = (isWordStart c || ('0' ≤ c && c ≤ '9'))
  space : ∀ c : Char, isSpace c = true → isWord c = false

/-- `str.upper`, as far as the keywords need it: no character outside ASCII has
a letter of a keyword as its upper case. -/
def upper (text : Text) : Text := text.map Char.toUpper

/-- `_KEYWORD_MAP` -/
def keywordType? (text : Text) : Option TokenType :=
  if upper text = "AND".toList then some .and
  else if upper text = "OR".toList then some .or
  else if upper text = "NOT".toList then some .not
  else none

/-- `!=|==|>=|<=|>|<` at the beginning of a text. -/
def operatorLength (text : Text) : Nat :=
  match text with
  | '!' :: '=' :: _ => 2
  | '=' :: '=' :: _ => 2
  | '>' :: '=' :: _ => 2
  | '<' :: '=' :: _ => 2
  | '>' :: _ => 1
  | '<' :: _ => 1
  | _ => 0

/-- `\d+(?:\.\d+)?` at the beginning of a text. -/
def numberLength (text : Text) : Nat :=
  let whole := (text.takeWhile isDecimal).length
  let fraction := ((text.drop (whole + 1)).takeWhile isDecimal).length
  if whole = 0 then 0
  else if (text.drop whole).head? = some '.' ∧ fraction ≠ 0 then whole + 1 + fraction
  else whole

def quotedLength (quote : Char) (text : Text) : Nat :=
  match text with
  | [] => 0
  | c :: rest =>
    if c = quote ∧ quote ∈ rest then (rest.takeWhile (· ≠ quote)).length + 2 else 0

section
variable (w : WordClass)

/-- `[a-zA-Z_]\w*` at the beginning of a text. -/
def wordLength (text : Text) : Nat :=
  match text with
  | [] => 0
  | c :: rest => if isWordStart c = true then (rest.takeWhile w.isWord).length + 1 else 0

def wordToken (pos : Nat) (word : Text) : Token :=
  match keywordType? word with
  | some type => { type := type, value := upper word, pos := pos }
  | none => { type := .string, value := word, pos := pos }

/-- The token at the beginning of a text that begins with no space, and how long
it is there. -/
def firstToken (pos : Nat) (text : Text) : Token × Nat :=
  if numberLength text ≠ 0 then
    ({ type := .number, value := text.take (numberLength text), pos := pos }, numberLength text)
  else if quotedLength '"' text ≠ 0 then
    ({ type := .string, value := (text.drop 1).take (quotedLength '"' text - 2), pos := pos },
      quotedLength '"' text)
  else if quotedLength '\'' text ≠ 0 then
    ({ type := .string, value := (text.drop 1).take (quotedLength '\'' text - 2), pos := pos },
      quotedLength '\'' text)
  else if operatorLength text ≠ 0 then
    ({ type := .op, value := text.take (operatorLength text), pos := pos }, operatorLength text)
  else if wordLength w text ≠ 0 then
    (wordToken pos (text.take (wordLength w text)), wordLength w text)
  else if text.head? = some '(' then ({ type := .lparen, value := text.take 1, pos := pos }, 1)
  else if text.head? = some ')' then ({ type := .rparen, value := text.take 1, pos := pos }, 1)
  else ({ type := .string, value := text.take 1, pos := pos }, 1)

def lexTokens : Nat → Nat → Text → List Token
  | 0, _, _ => []
  | fuel + 1, pos, text =>
    let body := text.dropWhile isSpace
    if body = [] then []
    else
      let found := firstToken w pos body
      found.1 :: lexTokens fuel (pos + (text.length - body.length) + found.2) (body.drop found.2)

def lex (expression : Text) : List Token :=
  lexTokens w expression.length 0 expression
    ++ [{ type := .eof, value := [], pos := expression.length }]

end

/-! ## Evaluating -/

/-- `_SIMPLE_OP_RE.split(expression, maxsplit=1)`: the text up to the first
operator, the operator, and the text behind it. -/
def splitOperator : Text → Option (Text × Text × Text)
  | [] => none
  | c :: rest =>
    if operatorLength (c :: rest) ≠ 0 then
      some ([], (c :: rest).take (operatorLength (c :: rest)),
        (c :: rest).drop (operatorLength (c :: rest)))
    else (splitOperator rest).map (fun parts => (c :: parts.1, parts.2))

/-- `_COMPOUND_KEYWORD_RE.search`: a keyword stands as a word. -/
def hasKeyword (expression : Text) : Bool :=
  (expression.splitOnP isSpace).any (fun word => (keywordType? word).isSome)

section
variable (floats : Floats) (w : WordClass)

def evaluateSimple (expression : Text) : Except String Bool :=
  match splitOperator expression with
  | none =>
    .error ("条件表达式格式无效: '" ++ String.ofList expression
      ++ "'，期望格式: 值 操作符 值 (如 '\x7b\x7bscore\x7d\x7d >= 60')")
  | some (left, op, right) =>
    match Op.ofText? op with
    | none => .error ("不支持的操作符: " ++ String.ofList op)
    | some o => .ok (o.apply floats (strip left) (strip right))

def evaluateCompound (expression : Text) : Except String Bool :=
  match parse floats (lex w expression) with
  | .ok b => .ok b
  | .error (.parse message _) =>
    .error ("条件表达式解析失败: '" ++ String.ofList expression ++ "'，" ++ message)
  | .error _ => .error ("条件表达式评估失败: '" ++ String.ofList expression ++ "'，")

def evaluateCondition (expression : Text) : Except String Bool :=
  let expr := strip expression
  if expr = [] then .error "条件表达式为空"
  else if hasKeyword expr = true then evaluateCompound floats w expr
  else evaluateSimple floats expr

end

/-! ## Tokens without their positions -/

def Token.shape (t : Token) : TokenType × Text := (t.type, t.value)

def shapes (w : WordClass) (text : Text) : List (TokenType × Text) :=
  (lexTokens w text.length 0 text).map Token.shape

section
variable {w : WordClass}

lemma firstToken_pos (pos other : Nat) (text : Text) :
    (firstToken w pos text).1.shape = (firstToken w other text).1.shape
      ∧ (firstToken w pos text).2 = (firstToken w other text).2 := by
  unfold firstToken
  split_ifs
  all_goals try exact ⟨rfl, rfl⟩
  unfold wordToken
  cases keywordType? (text.take (wordLength w text)) with
  | _ => exact ⟨rfl, rfl⟩

lemma firstToken_pos_length (pos : Nat) (text : Text) : 0 < (firstToken w pos text).2 := by
  unfold firstToken
  split_ifs
  all_goals simp only
  all_goals omega

lemma lexTokens_shapes {n m pos other : Nat} {text : Text} (hn : text.length ≤ n)
    (hm : text.length ≤ m) :
    (lexTokens w n pos text).map Token.shape = (lexTokens w m other text).map Token.shape := by
  induction n generalizing m pos other text with
  | zero =>
    obtain rfl := length_eq_zero_iff.1 (Nat.le_zero.1 hn)
    cases m with
    | _ => rfl
  | succ n ih =>
    cases m with
    | zero =>
      obtain rfl := length_eq_zero_iff.1 (Nat.le_zero.1 hm)
      rfl
    | succ m =>
      rw [lexTokens, lexTokens]
      simp only
      split
      · rfl
      next hbody =>
      obtain ⟨hshape, hlength⟩ := firstToken_pos (w := w) pos other (text.dropWhile isSpace)
      have hpos := firstToken_pos_length (w := w) pos (text.dropWhile isSpace)
      have hle := (dropWhile_suffix isSpace (l := text)).length_le
      have hdrop : ((text.dropWhile isSpace).drop
          (firstToken w pos (text.dropWhile isSpace)).2).length < text.length := by
        have := length_pos_iff.2 hbody
        rw [length_drop]
        omega
      rw [map_cons, map_cons, hshape, ← hlength]
      exact congrArg _ (ih (by omega) (by omega))

lemma shapes_space {c : Char} (hc : isSpace c = true) (text : Text) :
    shapes w (c :: text) = shapes w text := by
  have hdrop : (c :: text).dropWhile isSpace = text.dropWhile isSpace := by
    rw [dropWhile_cons_of_pos hc]
  have hone : (lexTokens w (c :: text).length 0 (c :: text)).map Token.shape
      = (lexTokens w (text.length + 1) 0 text).map Token.shape := by
    rw [length_cons, lexTokens, lexTokens]
    simp only [hdrop]
    split
    · rfl
    next hbody =>
    have hpos := firstToken_pos_length (w := w) 0 (text.dropWhile isSpace)
    have hle := (dropWhile_suffix isSpace (l := text)).length_le
    rw [map_cons, map_cons]
    apply congrArg
    apply lexTokens_shapes
    all_goals
      rw [length_drop]
      omega
  rw [shapes, hone]
  exact lexTokens_shapes (by omega) le_rfl

lemma shapes_cons {c : Char} (hc : isSpace c = false) (rest : Text) :
    shapes w (c :: rest) = (firstToken w 0 (c :: rest)).1.shape
      :: shapes w ((c :: rest).drop (firstToken w 0 (c :: rest)).2) := by
  have hdrop : (c :: rest).dropWhile isSpace = c :: rest := by
    rw [dropWhile_cons_of_neg]
    rw [hc]
    exact Bool.false_ne_true
  have hpos := firstToken_pos_length (w := w) 0 (c :: rest)
  rw [shapes, length_cons, lexTokens]
  simp only [hdrop, cons_ne_nil, if_false, map_cons]
  apply congrArg
  apply lexTokens_shapes
  · rw [length_drop, length_cons]
    omega
  exact le_rfl

end

/-! ## Operands -/

/-- A character that stands in a token of an operand. -/
structure Plain (c : Char) : Prop where
  space : isSpace c = false
  quotes : c ≠ '"' ∧ c ≠ '\''
  parens : c ≠ '(' ∧ c ≠ ')'
  operators : c ≠ '!' ∧ c ≠ '=' ∧ c ≠ '<' ∧ c ≠ '>'

def TokenType.inOperand : TokenType → Bool
  | .number => true
  | .string => true
  | .and => true
  | .or => true
  | .not => true
  | _ => false

/-- A text without whitespace, quotes, parentheses and comparison characters
that is no keyword. -/
structure Operand (text : Text) : Prop where
  ne_nil : text ≠ []
  plain : ∀ c ∈ text, Plain c
  notKeyword : keywordType? text = none

section
variable {w : WordClass}

lemma takeWhile_space {p : Char → Bool} (hp : p ' ' = false) (text more : Text) :
    (text ++ ' ' :: more).takeWhile p = text.takeWhile p := by
  induction text with
  | nil => rw [nil_append, takeWhile_cons, hp]; rfl
  | cons c rest ih =>
    rw [cons_append, takeWhile_cons, takeWhile_cons, ih]

lemma numberLength_le (text : Text) : numberLength text ≤ text.length := by
  have hwhole := ( takeWhile_prefix isDecimal (l := text)).length_le
  have hfraction := ( takeWhile_prefix isDecimal
    (l := text.drop ((text.takeWhile isDecimal).length + 1))).length_le
  rw [length_drop] at hfraction
  unfold numberLength
  simp only
  split
  · exact Nat.zero_le _
  split
  · omega
  exact hwhole

lemma numberLength_space (text more : Text) :
    numberLength (text ++ ' ' :: more) = numberLength text := by
  have hwhole := ( takeWhile_prefix isDecimal (l := text)).length_le
  unfold numberLength
  simp only
  rw [takeWhile_space (by decide), drop_append_of_le_length hwhole]
  rcases Nat.lt_or_ge (text.takeWhile isDecimal).length text.length with hlt | hge
  · rw [drop_append_of_le_length hlt, takeWhile_space (by decide), head?_append]
    cases hdrop : text.drop (text.takeWhile isDecimal).length with
    | nil =>
      have hlength := congrArg List.length hdrop
      rw [length_drop, length_nil] at hlength
      omega
    | cons => rfl
  -- the number is the whole text, and the space is no point
  rw [drop_eq_nil_of_le hge, nil_append]
  split
  · rfl
  have hpoint : (' ' :: more).head? ≠ some '.' := fun h => absurd (some.inj h) (by decide)
  rw [if_neg (fun h => hpoint h.1), if_neg (fun h => absurd h.1 (by decide))]

lemma wordLength_le (text : Text) : wordLength w text ≤ text.length := by
  cases text with
  | nil => exact le_rfl
  | cons c rest =>
    have hrest := ( takeWhile_prefix w.isWord (l := rest)).length_le
    unfold wordLength
    simp only
    split
    · rw [length_cons]
      omega
    exact Nat.zero_le _

lemma wordLength_space {text : Text} (hne : text ≠ []) (more : Text) :
    wordLength w (text ++ ' ' :: more) = wordLength w text := by
  cases text with
  | nil => exact absurd rfl hne
  | cons =>
    rw [cons_append]
    unfold wordLength
    simp only
    rw [takeWhile_space (w.space ' ' (by decide))]

lemma firstToken_plain {pos : Nat} {c : Char} (hc : Plain c) (rest : Text) :
    firstToken w pos (c :: rest) =
      if numberLength (c :: rest) ≠ 0 then
        ({ type := .number, value := (c :: rest).take (numberLength (c :: rest)), pos := pos },
          numberLength (c :: rest))
      else if wordLength w (c :: rest) ≠ 0 then
        (wordToken pos ((c :: rest).take (wordLength w (c :: rest))), wordLength w (c :: rest))
      else ({ type := .string, value := [c], pos := pos }, 1) := by
  have hquoted : ∀ quote, c ≠ quote → quotedLength quote (c :: rest) = 0 := by
    intro quote hne
    unfold quotedLength
    simp only
    rw [if_neg (fun h => hne h.1)]
  have hoperator : operatorLength (c :: rest) = 0 := by
    obtain ⟨hne, _, _, _⟩ := hc.operators
    unfold operatorLength
    split <;> simp_all
  have hopen : (c :: rest).head? ≠ some '(' := fun h => hc.parens.1 (some.inj h)
  have hclose : (c :: rest).head? ≠ some ')' := fun h => hc.parens.2 (some.inj h)
  unfold firstToken
  rw [hquoted '"' hc.quotes.1, hquoted '\'' hc.quotes.2, hoperator, if_neg hopen, if_neg hclose]
  rfl

lemma firstToken_space {pos : Nat} {c : Char} (hc : Plain c) (rest more : Text) :
    firstToken w pos ((c :: rest) ++ ' ' :: more) = firstToken w pos (c :: rest)
      ∧ (firstToken w pos (c :: rest)).2 ≤ (c :: rest).length := by
  have hnumber := numberLength_le (c :: rest)
  have hword := wordLength_le (w := w) (c :: rest)
  have hspace := numberLength_space (c :: rest) more
  have hspace' := wordLength_space (w := w) (cons_ne_nil c rest) more
  rw [cons_append] at hspace hspace' ⊢
  rw [firstToken_plain hc, firstToken_plain hc, hspace, hspace', ← cons_append]
  split_ifs
  · exact ⟨by rw [take_append_of_le_length hnumber], hnumber⟩
  · exact ⟨by rw [take_append_of_le_length hword], hword⟩
  exact ⟨rfl, Nat.succ_le_succ (Nat.zero_le _)⟩

lemma shapes_operand {text : Text} (h : ∀ c ∈ text, Plain c) (more : Text) :
    shapes w (text ++ ' ' :: more) = shapes w text ++ shapes w more := by
  induction hn : text.length using Nat.strong_induction_on generalizing text with
  | _ n ih =>
    cases text with
    | nil => exact shapes_space (by decide) more
    | cons c rest =>
      have hc := h c mem_cons_self
      obtain ⟨hsame, hle⟩ := @firstToken_space w 0 c hc rest more
      have hpos := firstToken_pos_length (w := w) 0 (c :: rest)
      have hrest := shapes_cons (w := w) hc.space (rest ++ ' ' :: more)
      rw [← cons_append, hsame, drop_append_of_le_length hle] at hrest
      rw [hrest, shapes_cons hc.space rest, cons_append]
      apply congrArg
      refine ih _ ?_ (fun d hd => h d (mem_of_mem_drop hd)) rfl
      rw [length_drop]
      omega

lemma wordToken_type (pos : Nat) (word : Text) : (wordToken pos word).type.inOperand = true := by
  unfold wordToken keywordType?
  split_ifs
  all_goals rfl

lemma shapes_types {text : Text} (h : ∀ c ∈ text, Plain c) :
    ∀ s ∈ shapes w text, s.1.inOperand = true := by
  induction hn : text.length using Nat.strong_induction_on generalizing text with
  | _ n ih =>
    cases text with
    | nil => exact nofun
    | cons c rest =>
      have hc := h c mem_cons_self
      have hpos := firstToken_pos_length (w := w) 0 (c :: rest)
      intro s hs
      rw [shapes_cons hc.space rest] at hs
      rcases mem_cons.1 hs with rfl | hs
      · rw [firstToken_plain hc]
        split_ifs
        · rfl
        · exact wordToken_type 0 _
        rfl
      refine ih _ ?_ (fun d hd => h d (mem_of_mem_drop hd)) rfl s hs
      rw [length_drop, ← hn, length_cons]
      rw [length_cons] at *
      omega

def isValueType (type : TokenType) : Bool := type = .string || type = .number

lemma shapes_ne_nil {text : Text} (h : ∀ c ∈ text, Plain c) (hne : text ≠ []) :
    shapes w text ≠ [] := by
  cases text with
  | nil => exact absurd rfl hne
  | cons c rest =>
    rw [shapes_cons (h c mem_cons_self).space rest]
    exact cons_ne_nil _ _

lemma shapes_single {text : Text} (h : ∀ c ∈ text, Plain c) {s : TokenType × Text}
    (hs : shapes w text = [s]) (hvalue : isValueType s.1 = true) : s.2 = text := by
  cases text with
  | nil => cases hs
  | cons c rest =>
    have hc := h c mem_cons_self
    rw [shapes_cons hc.space rest] at hs
    obtain ⟨rfl, hrest⟩ := cons.inj hs
    have hall : (c :: rest).drop (firstToken w 0 (c :: rest)).2 = [] := by
      by_contra hne
      exact shapes_ne_nil (fun d hd => h d (mem_of_mem_drop hd)) hne hrest
    have htake : (c :: rest).take (firstToken w 0 (c :: rest)).2 = c :: rest := by
      have := take_append_drop (firstToken w 0 (c :: rest)).2 (c :: rest)
      rwa [hall, append_nil] at this
    rw [firstToken_plain hc] at hvalue htake ⊢
    split_ifs at hvalue htake ⊢
    · exact htake
    · simp only at htake
      rw [htake] at hvalue ⊢
      simp only at hvalue ⊢
      unfold wordToken keywordType? at hvalue ⊢
      split_ifs at hvalue ⊢
      · cases hvalue
      · cases hvalue
      · cases hvalue
      rfl
    exact htake

end

/-! ## The parser in front of `AND 1 == 1` -/

def Token.InOperand (t : Token) : Prop := t.type.inOperand = true

/-- An operand that is read as negations and one value. -/
structure Negated (tokens : List Token) (count : Nat) (value : Token) : Prop where
  split : ∃ nots, tokens = nots ++ [value] ∧ nots.length = count ∧ ∀ t ∈ nots, t.type = .not
  isValue : value.isValue = true

/-- `not` that many times. -/
def negate (count : Nat) (b : Bool) : Bool := Nat.repeat (fun x => !x) count b

section
variable {floats : Floats}

lemma Negated.cons {t value : Token} {tokens : List Token} {count : Nat} (ht : t.type = .not)
    (h : Negated tokens count value) : Negated (t :: tokens) (count + 1) value := by
  obtain ⟨⟨nots, rfl, rfl, hnots⟩, hvalue⟩ := h
  refine ⟨⟨t :: nots, rfl, rfl, ?_⟩, hvalue⟩
  intro u hu
  rcases mem_cons.1 hu with rfl | hu
  · exact ht
  exact hnots u hu

lemma Negated.tail {t value : Token} {tokens : List Token} {count : Nat} (ht : t.type = .not)
    (h : Negated (t :: tokens) count value) :
    ∃ less, count = less + 1 ∧ Negated tokens less value := by
  obtain ⟨⟨nots, hsplit, rfl, hnots⟩, hvalue⟩ := h
  cases nots with
  | nil =>
    obtain ⟨rfl, -⟩ := cons.inj hsplit
    rw [Token.isValue, ht] at hvalue
    cases hvalue
  | cons u nots =>
    obtain ⟨rfl, rfl⟩ := cons.inj hsplit
    exact ⟨nots.length, rfl, ⟨⟨nots, rfl, rfl, fun v hv => hnots v (mem_cons_of_mem _ hv)⟩,
      hvalue⟩⟩

lemma Negated.single {t value : Token} {tokens : List Token} {count : Nat} (ht : t.type ≠ .not)
    (h : Negated (t :: tokens) count value) : tokens = [] ∧ t = value ∧ count = 0 := by
  obtain ⟨⟨nots, hsplit, rfl, hnots⟩, -⟩ := h
  cases nots with
  | nil =>
    obtain ⟨rfl, rfl⟩ := cons.inj hsplit
    exact ⟨rfl, rfl, rfl⟩
  | cons =>
    obtain ⟨rfl, -⟩ := cons.inj hsplit
    exact absurd (hnots t mem_cons_self) ht

lemma comparison_noValue {t : Token} {rest : List Token} (ht : t.isValue = false) :
    ∃ e, comparison floats (t :: rest) = .error e := by
  unfold comparison
  simp only [ht, if_true]
  exact ⟨_, rfl⟩

lemma comparison_noOperator {t u : Token} {rest : List Token} (hu : u.type ≠ .op) :
    ∃ e, comparison floats (t :: u :: rest) = .error e := by
  unfold comparison
  simp only
  split
  all_goals exact ⟨_, rfl⟩

lemma unaryExpr_left {tokens : List Token} (htokens : ∀ t ∈ tokens, t.InOperand) {op : Token}
    (hop : op.type = .op) {n : Nat} (hn : tokens.length < n) (rest : List Token) :
    (∀ count value, Negated tokens count value → unaryExpr floats n (tokens ++ op :: rest)
          = (comparison floats (value :: op :: rest)).map (fun r => (negate count r.1, r.2)))
      ∧ ((∀ count value, ¬ Negated tokens count value) →
          ∃ e, unaryExpr floats n (tokens ++ op :: rest) = .error e) := by
  induction tokens generalizing n with
  | nil =>
    constructor
    · rintro count value ⟨⟨nots, hsplit, -⟩, -⟩
      exact absurd hsplit.symm (append_ne_nil_of_right_ne_nil _ (cons_ne_nil _ _))
    intro _
    cases n with
    | zero => cases hn
    | succ =>
      rw [nil_append, unaryExpr_comparison floats (by rw [hop]; decide) (by rw [hop]; decide)]
      apply comparison_noValue
      rw [Token.isValue, hop]
      rfl
  | cons t tokens ih =>
    cases n with
    | zero => cases hn
    | succ =>
      have ih := ih (fun u hu => htokens u (mem_cons_of_mem _ hu))
        (Nat.lt_of_succ_lt_succ hn)
      have ht := htokens t mem_cons_self
      by_cases hnot : t.type = .not
      · rw [cons_append, unaryExpr_not floats hnot]
        constructor
        · intro count value hnegated
          obtain ⟨less, rfl, hless⟩ := hnegated.tail hnot
          rw [ih.1 less value hless]
          cases comparison floats (value :: op :: rest) with
          | _ => rfl
        intro hnone
        obtain ⟨e, he⟩ := ih.2 (fun count value h => hnone _ _ (h.cons hnot))
        rw [he]
        exact ⟨e, rfl⟩
      have hparen : t.type ≠ .lparen := by
        intro htype
        rw [Token.InOperand, htype] at ht
        cases ht
      rw [cons_append, unaryExpr_comparison floats hnot hparen]
      constructor
      · intro count value hnegated
        obtain ⟨rfl, rfl, rfl⟩ := hnegated.single hnot
        show comparison floats (t :: op :: rest) = _
        cases comparison floats (t :: op :: rest) with
        | _ => rfl
      intro hnone
      cases hvalue : t.isValue with
      | false => exact comparison_noValue hvalue
      | true =>
        cases tokens with
        | nil =>
          have hone : Negated [t] 0 t :=
            ⟨⟨[], rfl, rfl, fun u hu => absurd hu not_mem_nil⟩, hvalue⟩
          exact absurd hone (hnone 0 t)
        | cons u =>
          apply comparison_noOperator
          intro hu
          have := htokens u (mem_cons_of_mem _ mem_cons_self)
          rw [Token.InOperand, hu] at this
          cases this

lemma unaryExpr_noOperator {tokens : List Token} (htokens : ∀ t ∈ tokens, t.InOperand)
    {u : Token} (hu : u.type = .and) {n : Nat} (rest : List Token) :
    ∃ e, unaryExpr floats n (tokens ++ u :: rest) = .error e := by
  induction tokens generalizing n with
  | nil =>
    cases n with
    | zero => exact ⟨_, rfl⟩
    | succ =>
      rw [nil_append, unaryExpr_comparison floats (by rw [hu]; decide) (by rw [hu]; decide)]
      apply comparison_noValue
      rw [Token.isValue, hu]
      rfl
  | cons t tokens ih =>
    cases n with
    | zero => exact ⟨_, rfl⟩
    | succ n =>
      have ht := htokens t mem_cons_self
      by_cases hnot : t.type = .not
      · rw [cons_append, unaryExpr_not floats hnot]
        obtain ⟨e, he⟩ := ih (fun v hv => htokens v (mem_cons_of_mem _ hv)) (n := n)
        rw [he]
        exact ⟨e, rfl⟩
      have hparen : t.type ≠ .lparen := by
        intro htype
        rw [Token.InOperand, htype] at ht
        cases ht
      rw [cons_append, unaryExpr_comparison floats hnot hparen]
      cases tokens with
      | nil => exact comparison_noOperator (by rw [hu]; decide)
      | cons v =>
        apply comparison_noOperator
        intro hv
        have := htokens v (mem_cons_of_mem _ mem_cons_self)
        rw [Token.InOperand, hv] at this
        cases this

lemma comparison_right {value op y : Token} {o : Op} (hvalue : value.isValue = true)
    (hop : op.type = .op) (ho : Op.ofText? op.value = some o) (rest : List Token) :
    (y.isValue = true → comparison floats (value :: op :: y :: rest)
        = .ok (o.apply floats value.value y.value, rest))
      ∧ (y.isValue = false → ∃ e, comparison floats (value :: op :: y :: rest) = .error e) := by
  constructor
  · intro hy
    unfold comparison
    simp only [hvalue, hop, ho, hy, ne_eq, not_true_eq_false, if_false, Bool.true_eq_false]
  intro hy
  unfold comparison
  simp only [hvalue, hop, hy, ne_eq, not_true_eq_false, if_false, if_true, Bool.true_eq_false]
  exact ⟨_, rfl⟩

lemma parse_behind {first : List Token} {b : Bool} {behind tail : List Token} {u e : Token}
    (hbehind : ∀ t ∈ behind, t.InOperand) (hu : u.type = .and) (he : e.type = .eof)
    (htail : ∀ n, unaryExpr floats (n + 1) tail = .ok (true, [e]))
    (hfirst : unaryExpr floats first.length first = .ok (b, behind ++ u :: tail)) :
    (behind = [] → parse floats first = .ok b)
      ∧ (behind ≠ [] → ∃ e, parse floats first = .error e) := by
  have hlength : ∃ n, first.length = n + 1 := by
    cases hn : first.length with
    | zero =>
      rw [hn] at hfirst
      cases hfirst
    | succ n => exact ⟨n, rfl⟩
  obtain ⟨n, hn⟩ := hlength
  have hand : andExpr floats first.length first
      = moreOperands .and and (unaryExpr floats first.length) ((behind ++ u :: tail).length + 1) b
          (behind ++ u :: tail) := by
    rw [andExpr, operands, hfirst]
    rfl
  have hparse : parse floats first = (andExpr floats first.length first).bind (fun r =>
      (moreOperands .or or (andExpr floats first.length) (r.2.length + 1) r.1 r.2).bind (fun r =>
        (expect .eof "表达式后有额外内容" r.2).map (fun _ => r.1))) := by
    rw [parse, orExpr, operands]
    cases andExpr floats first.length first with
    | error => rfl
    | ok r =>
      show (moreOperands .or or (andExpr floats first.length) (r.2.length + 1) r.1 r.2 >>= _)
        = (moreOperands .or or (andExpr floats first.length) (r.2.length + 1) r.1 r.2).bind _
      cases moreOperands .or or (andExpr floats first.length) (r.2.length + 1) r.1 r.2 with
      | error => rfl
      | ok r =>
        show (expect .eof "表达式后有额外内容" r.2 >>= _)
          = (expect .eof "表达式后有额外内容" r.2).map _
        cases expect .eof "表达式后有额外内容" r.2 with
        | _ => rfl
  rw [hparse, hand]
  constructor
  · rintro rfl
    have hunary : unaryExpr floats first.length tail = .ok (true, [e]) := by
      rw [hn]
      exact htail n
    rw [nil_append, moreOperands_next hu hunary, length_cons,
      moreOperands_stop (by rw [he]; decide)]
    simp only [Except.bind]
    rw [moreOperands_stop (by rw [he]; decide)]
    simp only [expect, if_pos he, Bool.and_true]
    rfl
  intro hne
  cases behind with
  | nil => exact absurd rfl hne
  | cons x others =>
    have hx := hbehind x mem_cons_self
    have hothers := fun t ht => hbehind t (mem_cons_of_mem x ht)
    obtain ⟨err, herr⟩ := @unaryExpr_noOperator floats others hothers u hu
      first.length tail
    rw [cons_append]
    by_cases hxand : x.type = .and
    · rw [moreOperands, matchType, if_pos hxand]
      refine ⟨err, ?_⟩
      show Except.bind (unaryExpr floats first.length (others ++ u :: tail) >>= _) _ = _
      rw [herr]
      rfl
    rw [moreOperands_stop hxand]
    simp only [Except.bind]
    by_cases hxor : x.type = .or
    · rw [moreOperands, matchType, if_pos hxor]
      refine ⟨err, ?_⟩
      show Except.bind (andExpr floats first.length (others ++ u :: tail) >>= _) _ = _
      rw [andExpr, operands, herr]
      rfl
    rw [moreOperands_stop hxor]
    have hxeof : x.type ≠ .eof := by
      intro htype
      rw [Token.InOperand, htype] at hx
      cases hx
    simp only [expect, if_neg hxeof]
    exact ⟨_, rfl⟩

/-- **Two operands, an operator and a true comparison**: the parser returns what
the comparison of the values gives, negated as often as the left operand says,
if each operand is one value but for the negations; otherwise it refuses. -/
theorem parse_joined {left right tail : List Token} {op u e : Token} {o : Op}
    (hleft : ∀ t ∈ left, t.InOperand) (hright : ∀ t ∈ right, t.InOperand)
    (hop : op.type = .op) (ho : Op.ofText? op.value = some o) (hu : u.type = .and)
    (he : e.type = .eof) (htail : ∀ n, unaryExpr floats (n + 1) tail = .ok (true, [e])) :
    (∀ count value y, Negated left count value → right = [y] → y.isValue = true →
        parse floats (left ++ op :: (right ++ u :: tail))
          = .ok (negate count (o.apply floats value.value y.value)))
      ∧ ((∀ count value y, Negated left count value → right = [y] → y.isValue = false) →
          ∃ e, parse floats (left ++ op :: (right ++ u :: tail)) = .error e) := by
  obtain ⟨hread, hrefused⟩ := @unaryExpr_left floats left hleft op hop
    (left ++ op :: (right ++ u :: tail)).length
    (by rw [length_append, length_cons]; omega) (right ++ u :: tail)
  -- an operand that cannot be read makes the whole expression fail
  have hfail : (∃ err, unaryExpr floats (left ++ op :: (right ++ u :: tail)).length
      (left ++ op :: (right ++ u :: tail)) = .error err) →
      ∃ err, parse floats (left ++ op :: (right ++ u :: tail)) = .error err := by
    rintro ⟨err, herr⟩
    rw [parse, orExpr, operands, andExpr, operands, herr]
    exact ⟨err, rfl⟩
  constructor
  · rintro count value y hnegated rfl hy
    have hfirst := hread count value hnegated
    rw [singleton_append, (comparison_right hnegated.isValue hop ho _).1 hy] at hfirst
    rw [singleton_append]
    have hnil : ∀ t ∈ ([] : List Token), t.InOperand := fun t ht => absurd ht not_mem_nil
    exact (parse_behind hnil hu he htail hfirst).1 rfl
  intro hnone
  by_cases hnegated : ∃ count value, Negated left count value
  · obtain ⟨count, value, hnegated⟩ := hnegated
    have hfirst := hread count value hnegated
    cases right with
    | nil =>
      apply hfail
      have huvalue : u.isValue = false := by
        rw [Token.isValue, hu]
        rfl
      obtain ⟨err, herr⟩ := (@comparison_right floats value op u o hnegated.isValue hop ho
        tail).2 huvalue
      rw [hfirst, nil_append, herr]
      exact ⟨err, rfl⟩
    | cons y behind =>
      cases hy : y.isValue with
      | false =>
        apply hfail
        obtain ⟨err, herr⟩ := (@comparison_right floats value op y o hnegated.isValue hop ho
          (behind ++ u :: tail)).2 hy
        rw [hfirst, cons_append, herr]
        exact ⟨err, rfl⟩
      | true =>
        rw [cons_append, (comparison_right hnegated.isValue hop ho _).1 hy] at hfirst
        apply (parse_behind (fun t ht => hright t (mem_cons_of_mem _ ht)) hu he htail
          hfirst).2
        rintro rfl
        rw [hnone count value y hnegated rfl] at hy
        cases hy
  exact hfail (hrefused (fun count value h => hnegated ⟨count, value, h⟩))

end

/-! ## A comparison that is joined with a true one -/

def Op.text : Op → Text
  | .ne => ['!', '=']
  | .eq => ['=', '=']
  | .ge => ['>', '=']
  | .le => ['<', '=']
  | .gt => ['>']
  | .lt => ['<']

lemma Op.ofText?_text (o : Op) : Op.ofText? o.text = some o := by
  cases o <;> rfl

/-- `l op r` -/
def alone (l : Text) (o : Op) (r : Text) : Text := l ++ ' ' :: (o.text ++ ' ' :: r)

/-- ` AND 1 == 1` -/
def trueEnd : Text := "AND 1 == 1".toList

/-- `l op r AND 1 == 1` -/
def joined (l : Text) (o : Op) (r : Text) : Text :=
  l ++ ' ' :: (o.text ++ ' ' :: (r ++ ' ' :: trueEnd))

section
variable {w : WordClass}

lemma shapes_operator (o : Op) (more : Text) :
    shapes w (o.text ++ ' ' :: more) = (.op, o.text) :: shapes w more := by
  have hfirst : ∃ c rest, o.text ++ ' ' :: more = c :: rest ∧ isSpace c = false
      ∧ (firstToken w 0 (c :: rest)).1.shape = (.op, o.text)
      ∧ (c :: rest).drop (firstToken w 0 (c :: rest)).2 = ' ' :: more := by
    cases o with
    | ne => exact ⟨'!', '=' :: ' ' :: more, rfl, rfl, rfl, rfl⟩
    | eq => exact ⟨'=', '=' :: ' ' :: more, rfl, rfl, rfl, rfl⟩
    | ge => exact ⟨'>', '=' :: ' ' :: more, rfl, rfl, rfl, rfl⟩
    | le => exact ⟨'<', '=' :: ' ' :: more, rfl, rfl, rfl, rfl⟩
    | gt => exact ⟨'>', ' ' :: more, rfl, rfl, rfl, rfl⟩
    | lt => exact ⟨'<', ' ' :: more, rfl, rfl, rfl, rfl⟩
  obtain ⟨c, rest, htext, hc, hshape, hdrop⟩ := hfirst
  rw [htext, shapes_cons hc, hshape, hdrop, shapes_space (by decide)]

lemma shapes_and : shapes w "AND".toList = [(.and, "AND".toList)] := by
  have hword : w.isWord 'N' = true ∧ w.isWord 'D' = true := by
    constructor
    · rw [w.ascii 'N' (by decide)]
      rfl
    rw [w.ascii 'D' (by decide)]
    rfl
  have hlength : wordLength w ['A', 'N', 'D'] = 3 := by
    unfold wordLength
    simp only
    rw [if_pos (by decide), takeWhile_cons, hword.1, takeWhile_cons, hword.2]
    rfl
  have hplain : Plain 'A' := by
    constructor
    all_goals decide
  show shapes w ['A', 'N', 'D'] = _
  rw [shapes_cons hplain.space, firstToken_plain hplain, hlength]
  rfl

lemma shapes_one : shapes w ['1'] = [(.number, ['1'])] := rfl

lemma shapes_trueEnd : shapes w trueEnd =
    [(.and, "AND".toList), (.number, ['1']), (.op, ['=', '=']), (.number, ['1'])] := by
  have hplain : ∀ c ∈ "AND1".toList, Plain c := by
    intro c hc
    constructor
    all_goals
      revert c
      exact all_iff_forall_prop.1 (by decide)
  have hand : ∀ c ∈ "AND".toList, Plain c := fun c hc =>
    hplain c (mem_append_left ['1'] hc)
  have hone : ∀ c ∈ ['1'], Plain c := fun c hc => hplain c (mem_append_right "AND".toList hc)
  show shapes w ("AND".toList ++ ' ' :: (['1'] ++ ' ' :: (Op.eq.text ++ ' ' :: ['1']))) = _
  rw [shapes_operand hand, shapes_operand hone, shapes_operator, shapes_and, shapes_one]
  rfl

lemma shapes_joined {l r : Text} (hl : Operand l) (hr : Operand r) (o : Op) :
    shapes w (joined l o r) = shapes w l ++ (.op, o.text) :: (shapes w r
      ++ [(.and, "AND".toList), (.number, ['1']), (.op, ['=', '=']), (.number, ['1'])]) := by
  rw [joined, shapes_operand hl.plain, shapes_operator, shapes_operand hr.plain, shapes_trueEnd]

end

/-- A text that is read as negations and one value. -/
structure ReadsAs (w : WordClass) (text : Text) (count : Nat) (value : Text) : Prop where
  split : ∃ nots type, shapes w text = nots ++ [(type, value)] ∧ nots.length = count
    ∧ (∀ s ∈ nots, s.1 = .not) ∧ isValueType type = true

section
variable {floats : Floats} {w : WordClass}

lemma Operand.head {text : Text} (h : Operand text) (more : Text) :
    ∀ c ∈ (text ++ more).head?, isSpace c = false := by
  cases text with
  | nil => exact absurd rfl h.ne_nil
  | cons d =>
    intro c hc
    obtain rfl := some.inj hc
    exact (h.plain d mem_cons_self).space

lemma Operand.last {text : Text} (h : Operand text) : ∀ c ∈ text.getLast?, isSpace c = false :=fun c hc =>
  (h.plain c (mem_of_mem_getLast? hc)).space

lemma Operand.strip {text : Text} (h : Operand text) : strip text = text := by
  apply strip_eq_self
  · have := h.head []
    rwa [append_nil] at this
  exact h.last

lemma strip_space_left {text : Text} (h : Operand text) : strip (' ' :: text) = text := by
  have : strip (' ' :: text) = strip text := rfl
  rw [this, h.strip]

lemma strip_space_right {text : Text} (h : Operand text) : strip (text ++ [' ']) = text := by
  apply strip_append _ h.last h.ne_nil (all_eq_true.1 rfl)
  have := h.head []
  rwa [append_nil] at this

lemma splitOperator_operand {text : Text} (h : ∀ c ∈ text, Plain c) (o : Op) (more : Text) :
    splitOperator (text ++ ' ' :: (o.text ++ ' ' :: more)) = some (text ++ [' '], o.text, ' ' :: more) := by
  induction text with
  | nil =>
    cases o <;> rfl
  | cons c rest ih =>
    have hoperator : operatorLength (c :: (rest ++ ' ' :: (o.text ++ ' ' :: more))) = 0 := by
      obtain ⟨hne, _, _, _⟩ := (h c mem_cons_self).operators
      unfold operatorLength
      split <;> simp_all
    rw [cons_append, splitOperator, hoperator, if_neg (fun hne => hne rfl),
      ih (fun d hd => h d (mem_cons_of_mem c hd))]
    rfl

lemma splitOnP_operand {text : Text} (h : ∀ c ∈ text, Plain c) (more : Text) :
    (text ++ ' ' :: more).splitOnP isSpace = text :: more.splitOnP isSpace :=
  splitOnP_append_cons_of_forall_mem (fun c hc => (h c hc).space) ' ' (by decide) more

lemma Op.text_plainWord (o : Op) (more : Text) :
    (o.text ++ ' ' :: more).splitOnP isSpace = o.text :: more.splitOnP isSpace
      ∧ keywordType? o.text = none := by
  constructor
  · apply splitOnP_append_cons_of_forall_mem _ ' ' (by decide)
    cases o <;> exact all_iff_forall_prop.1 rfl
  cases o <;> decide

lemma evaluate_alone {l r : Text} (hl : Operand l) (hr : Operand r) (o : Op) :
    evaluateCondition floats w (alone l o r) = .ok (o.apply floats l r) := by
  have hstrip : strip (alone l o r) = alone l o r := by
    have hsplit : alone l o r = (l ++ ' ' :: (o.text ++ [' '])) ++ r := by
      simp only [alone, append_assoc, cons_append, nil_append]
    apply strip_eq_self
    · exact hl.head _
    rw [hsplit, getLast?_append_of_ne_nil _ hr.ne_nil]
    exact hr.last
  have hkeyword : hasKeyword (alone l o r) = false := by
    rw [hasKeyword, alone, splitOnP_operand hl.plain, (o.text_plainWord r).1,
      splitOnP_eq_singleton (fun c hc => (hr.plain c hc).space), any_cons, any_cons,
      any_cons, hl.notKeyword, (o.text_plainWord r).2, hr.notKeyword]
    rfl
  rw [evaluateCondition, hstrip, if_neg, hkeyword, if_neg Bool.false_ne_true, evaluateSimple, alone,
    splitOperator_operand hl.plain]
  · simp only [Op.ofText?_text, strip_space_left hr, strip_space_right hl]
  exact append_ne_nil_of_left_ne_nil hl.ne_nil _

lemma evaluate_joined {l r : Text} (hl : Operand l) (hr : Operand r) (o : Op) :
    evaluateCondition floats w (joined l o r) = evaluateCompound floats w (joined l o r) := by
  have hstrip : strip (joined l o r) = joined l o r := by
    have hsplit : joined l o r = (l ++ ' ' :: (o.text ++ ' ' :: (r ++ [' ']))) ++ trueEnd := by
      simp only [joined, append_assoc, cons_append, nil_append]
    apply strip_eq_self
    · exact hl.head _
    rw [hsplit, getLast?_append_of_ne_nil _ (by decide : trueEnd ≠ [])]
    intro c hc
    obtain rfl : '1' = c := some.inj hc
    rfl
  have hkeyword : hasKeyword (joined l o r) = true := by
    rw [hasKeyword, joined, splitOnP_operand hl.plain, (o.text_plainWord _).1,
      splitOnP_operand hr.plain, any_cons, any_cons, any_cons, Bool.or_eq_true,
      Bool.or_eq_true, Bool.or_eq_true]
    exact .inr (.inr (.inr (by decide)))
  rw [evaluateCondition, hstrip, if_neg, hkeyword, if_pos rfl]
  exact append_ne_nil_of_left_ne_nil hl.ne_nil _

lemma inOperand_of_shapes {text : Text} (h : ∀ c ∈ text, Plain c) {tokens : List Token}
    (htokens : tokens.map Token.shape = shapes w text) : ∀ t ∈ tokens, t.InOperand := by
  intro t ht
  apply shapes_types (w := w) h t.shape
  rw [← htokens]
  exact mem_map_of_mem ht

lemma negated_iff {text value : Text} {tokens : List Token} {count : Nat}
    (htokens : tokens.map Token.shape = shapes w text) :
    (∃ t, Negated tokens count t ∧ t.value = value) ↔ ReadsAs w text count value := by
  constructor
  · rintro ⟨t, ⟨⟨nots, rfl, rfl, hnots⟩, hvalue⟩, rfl⟩
    refine ⟨⟨nots.map Token.shape, t.type, ?_, length_map _, ?_, hvalue⟩⟩
    · rw [← htokens, map_append]
      rfl
    intro _ hs
    obtain ⟨u, hu, rfl⟩ := mem_map.1 hs
    exact hnots u hu
  rintro ⟨nots, type, hsplit, rfl, hnots, htype⟩
  rw [hsplit] at htokens
  obtain ⟨front, _, rfl, rfl, hback⟩ := map_eq_append_iff.1 htokens
  obtain ⟨t, ht, hshape⟩ := map_eq_singleton_iff.1 hback
  obtain ⟨rfl, rfl⟩ := Prod.mk.inj hshape
  refine ⟨t, ⟨⟨front, by rw [ht], (length_map _).symm, ?_⟩, htype⟩, rfl⟩
  intro u hu
  exact hnots u.shape (mem_map_of_mem hu)

/-- **A comparison that is joined with a true one keeps its value exactly if** its
operands are single tokens: the right one is, and the left one is, or it is
`NOT` in front of one and the comparison of that one, negated, happens to have
the same value. -/
theorem joined_iff {l r : Text} (hl : Operand l) (hr : Operand r) (o : Op) :
    evaluateCondition floats w (joined l o r) = evaluateCondition floats w (alone l o r) ↔
      ReadsAs w r 0 r ∧ ∃ count value, ReadsAs w l count value
        ∧ negate count (o.apply floats value r) = o.apply floats l r := by
  rw [evaluate_alone hl hr, evaluate_joined hl hr, evaluateCompound, lex]
  have hshapes : (lexTokens w (joined l o r).length 0 (joined l o r)).map Token.shape = _ :=
    shapes_joined (w := w) hl hr o
  obtain ⟨left, behind, hall, hleft, hbehind⟩ := map_eq_append_iff.1 hshapes
  obtain ⟨op, behind, rfl, hop, hbehind⟩ := map_eq_cons_iff.1 hbehind
  obtain ⟨right, ending, rfl, hright, hending⟩ := map_eq_append_iff.1 hbehind
  obtain ⟨_, ending, rfl, hu, hending⟩ := map_eq_cons_iff.1 hending
  obtain ⟨one, ending, rfl, hone, hending⟩ := map_eq_cons_iff.1 hending
  obtain ⟨eq, ending, rfl, heq, hending⟩ := map_eq_cons_iff.1 hending
  obtain ⟨other, rfl, hother⟩ := map_eq_singleton_iff.1 hending
  obtain ⟨hoptype, hopvalue⟩ := Prod.mk.inj hop
  obtain ⟨hutype, -⟩ := Prod.mk.inj hu
  obtain ⟨honetype, honevalue⟩ := Prod.mk.inj hone
  obtain ⟨heqtype, heqvalue⟩ := Prod.mk.inj heq
  obtain ⟨hothertype, hothervalue⟩ := Prod.mk.inj hother
  have ho : Op.ofText? op.value = some o := by rw [hopvalue, Op.ofText?_text]
  have htail : ∀ (e : Token) (n : Nat),
      unaryExpr floats (n + 1) ([one, eq, other] ++ [e]) = .ok (true, [e]) := by
    intro e n
    rw [cons_append, unaryExpr_comparison floats (by rw [honetype]; decide)
      (by rw [honetype]; decide)]
    have honeis : one.isValue = true := by
      rw [Token.isValue, honetype]
      rfl
    have hotheris : other.isValue = true := by
      rw [Token.isValue, hothertype]
      rfl
    have heqop : Op.ofText? eq.value = some .eq := by
      rw [heqvalue]
      rfl
    rw [cons_append, cons_append, (comparison_right honeis heqtype heqop _).1 hotheris,
      honevalue, hothervalue]
    rfl
  rw [hall, append_assoc, cons_append, append_assoc, cons_append, cons_append]
  have hend : ({ type := .eof, value := [], pos := (joined l o r).length } : Token).type = .eof := rfl
  obtain ⟨hread, hrefused⟩ := parse_joined
    (inOperand_of_shapes hl.plain hleft) (inOperand_of_shapes hr.plain hright) hoptype ho hutype
    hend (htail _)
  constructor
  · intro h
    by_cases hreads : ∃ count value y, Negated left count value ∧ right = [y] ∧ y.isValue = true
    · obtain ⟨count, value, y, hnegated, rfl, hy⟩ := hreads
      have hvalue : y.value = r := shapes_single hr.plain hright.symm hy
      have hsingle : Negated [y] 0 y := ⟨⟨[], rfl, rfl, fun t ht => absurd ht not_mem_nil⟩, hy⟩
      refine ⟨(negated_iff hright).1 ⟨y, hsingle, hvalue⟩, count, value.value,
        (negated_iff hleft).1 ⟨value, hnegated, rfl⟩, ?_⟩
      have hparsed := hread count value y hnegated rfl hy
      simp only [cons_append, nil_append] at h hparsed
      rw [hparsed, hvalue] at h
      exact Except.ok.inj h
    obtain ⟨err, herr⟩ := hrefused (fun count value y hnegated hy =>
      Bool.eq_false_iff.2 (fun hvalue => hreads ⟨count, value, y, hnegated, hy, hvalue⟩))
    simp only [cons_append, nil_append] at h herr
    rw [herr] at h
    cases err <;> cases h
  rintro ⟨hr', count, value, hl', hsame⟩
  obtain ⟨y, hy, hyvalue⟩ := (negated_iff hright).2 hr'
  obtain ⟨t, ht, rfl⟩ := (negated_iff hleft).2 hl'
  have hone : right = [y] := by
    obtain ⟨_, hsplit, hcount, -⟩ := hy.split
    rw [length_eq_zero_iff.1 hcount] at hsplit
    exact hsplit
  have hparsed := hread count t y ht hone hy.isValue
  simp only [cons_append, nil_append] at hparsed ⊢
  rw [hparsed, hyvalue, hsame]

/-! ### On ASCII words and whole numbers -/

theorem isWordStart_space {c : Char} (hc : isSpace c = true) :
    (isWordStart c || ('0' ≤ c && c ≤ '9')) = false := by
  have hnat : ∀ d e : Char, d ≤ e ↔ d.toNat ≤ e.toNat := fun d e => Char.le_def.trans
    UInt32.le_iff_toNat_le
  have hunderscore : c ≠ '_' := by
    rintro rfl
    cases hc
  have hcodes : 'a'.toNat = 97 ∧ 'z'.toNat = 122 ∧ 'A'.toNat = 65 ∧ 'Z'.toNat = 90
      ∧ '0'.toNat = 48 ∧ '9'.toNat = 57 := by decide
  simp only [isSpace, Bool.or_eq_true, Bool.and_eq_true, decide_eq_true_eq, beq_iff_eq] at hc
  simp only [isWordStart, Bool.or_eq_false_iff, Bool.and_eq_false_iff, decide_eq_false_iff_not,
    hnat, hunderscore, not_false_eq_true, and_true]
  omega

def asciiWords : WordClass where
  isWord c := isWordStart c || ('0' ≤ c && c ≤ '9')
  ascii _ _ := rfl
  space _ hc := isWordStart_space hc

lemma operand_of_all {text : Text} (hne : text ≠ [])
    (hplain : text.all (fun c => !isSpace c && c ∉ ("\"'()!=<>".toList)) = true)
    (hkeyword : keywordType? text = none) : Operand text := by
  constructor
  · exact hne
  · intro c hc
    have hall := all_eq_true.1 hplain c hc
    rw [Bool.and_eq_true, Bool.not_eq_true', decide_eq_true_eq] at hall
    have hother : ∀ d ∈ "\"'()!=<>".toList, c ≠ d := fun d hd heq => hall.2 (heq ▸ hd)
    constructor
    · exact hall.1
    · exact ⟨hother '"' (by decide), hother '\'' (by decide)⟩
    · exact ⟨hother '(' (by decide), hother ')' (by decide)⟩
    exact ⟨hother '!' (by decide), hother '=' (by decide), hother '<' (by decide),
      hother '>' (by decide)⟩
  exact hkeyword

theorem joined_iff_score :
    evaluateCondition wholeFloats asciiWords (joined "80".toList .ge "60".toList)
        = evaluateCondition wholeFloats asciiWords (alone "80".toList .ge "60".toList) ↔
      ReadsAs asciiWords "60".toList 0 "60".toList
        ∧ ∃ count value, ReadsAs asciiWords "80".toList count value
          ∧ negate count (Op.ge.apply wholeFloats value "60".toList)
            = Op.ge.apply wholeFloats "80".toList "60".toList :=
  joined_iff (operand_of_all (by decide) (by decide) (by decide))
    (operand_of_all (by decide) (by decide) (by decide)) .ge

/-- A negative number is two tokens: `-5 == -5` is true, and with `AND 1 == 1`
it is refused. -/
theorem joined_negative : Operand "-5".toList
      ∧ evaluateCondition wholeFloats asciiWords (alone "-5".toList .eq "-5".toList) = .ok true
      ∧ evaluateCondition wholeFloats asciiWords (joined "-5".toList .eq "-5".toList) ≠ .ok true := by
  have hoperand : Operand "-5".toList := operand_of_all (by decide) (by decide) (by decide)
  refine ⟨hoperand, ?_, ?_⟩
  · rw [evaluate_alone hoperand hoperand]
    decide
  decide +kernel

end
end DeterminFlow.Workflow.Condition
