/-
  Workflow.ConditionParser
  **THE PARSER OF BRANCH CONDITIONS.**

  `Parser` reads a list of tokens by recursive descent and evaluates while it
  reads.  What is left of the list is the state; reading past its end is an
  error of its own.  How Python reads and compares floats is a parameter.
-/
import Mathlib.Data.Char
import Mathlib.Data.List.Lex
import DeterminFlow.Library.Outcome
import DeterminFlow.Library.PyText

namespace DeterminFlow.Workflow.Condition

open Library PyText List Option Except Outcome

/-! ## Tokens -/

abbrev Text : Type := List Char

inductive TokenType where
  | number
  | string
  | op
  | and
  | or
  | not
  | lparen
  | rparen
  | eof
  deriving DecidableEq

def TokenType.name : TokenType → String
  | .number => "NUMBER"
  | .string => "STRING"
  | .op => "OP"
  | .and => "AND"
  | .or => "OR"
  | .not => "NOT"
  | .lparen => "LPAREN"
  | .rparen => "RPAREN"
  | .eof => "EOF"

structure Token where
  type : TokenType
  value : Text
  pos : Nat
  deriving DecidableEq

def Token.isValue (t : Token) : Bool := t.type = .string || t.type = .number

inductive ParserError where
  /-- `ParseError` -/
  | parse (message : String) (pos : Nat)
  /-- `IndexError`: no token is left. -/
  | index
  /-- The fuel of the model is used up. -/
  | fuel
  deriving DecidableEq

/-! ## Comparing -/

/-- `float`: how a text is read, and the comparisons. -/
structure Floats where
  Value : Type
  ofText? : Text → Option Value
  ge : Value → Value → Bool
  le : Value → Value → Bool
  gt : Value → Value → Bool
  lt : Value → Value → Bool

inductive Op where
  | ne
  | eq
  | ge
  | le
  | gt
  | lt
  deriving DecidableEq

/-- The keys of `OPS`. -/
def Op.ofText? (text : Text) : Option Op :=
  if text = ['!', '='] then some .ne
  else if text = ['=', '='] then some .eq
  else if text = ['>', '='] then some .ge
  else if text = ['<', '='] then some .le
  else if text = ['>'] then some .gt
  else if text = ['<'] then some .lt
  else none

section
variable (floats : Floats)

/-- `_numeric_cmp`, for the comparison of numbers and that of texts. -/
def numericCmp (onFloats : floats.Value → floats.Value → Bool) (onTexts : Text → Text → Bool)
    (a b : Text) : Bool :=
  match floats.ofText? a, floats.ofText? b with
  | some x, some y => onFloats x y
  | _, _ => onTexts (strip a) (strip b)

/-- `OPS[op](a, b)` -/
def Op.apply : Op → Text → Text → Bool
  | .ne, a, b => decide (a ≠ b)
  | .eq, a, b => decide (a = b)
  | .ge, a, b => numericCmp floats floats.ge (fun x y => decide (y ≤ x)) a b
  | .le, a, b => numericCmp floats floats.le (fun x y => decide (x ≤ y)) a b
  | .gt, a, b => numericCmp floats floats.gt (fun x y => decide (y < x)) a b
  | .lt, a, b => numericCmp floats floats.lt (fun x y => decide (x < y)) a b

end

/-! ## The parser -/

abbrev Result : Type := Except ParserError (Bool × List Token)

/-- `_match`: the tokens behind the current one, if it has the type. -/
def matchType (type : TokenType) : List Token → Except ParserError (Option (List Token))
  | [] => .error .index
  | t :: rest => .ok (if t.type = type then some rest else none)

def expect (type : TokenType) (message : String) : List Token → Except ParserError (List Token)
  | [] => .error .index
  | t :: rest => if t.type = type then .ok rest else .error (.parse message t.pos)

def valueExpected (t : Token) : ParserError :=
  .parse ("期望值（数字或字符串），实际是 " ++ t.type.name) t.pos

def operatorExpected (t : Token) : ParserError :=
  .parse ("期望比较操作符 (== != >= <= > <)，实际是 " ++ t.type.name ++ ": '"
    ++ String.ofList t.value ++ "'") t.pos

def comparison (floats : Floats) : List Token → Result
  | [] => .error .index
  | left :: rest =>
    if left.isValue = false then .error (valueExpected left)
    else
      match rest with
      | [] => .error .index
      | op :: rest =>
        if op.type ≠ .op then .error (operatorExpected op)
        else
          match rest with
          | [] => .error .index
          | right :: rest =>
            if right.isValue = false then .error (valueExpected right)
            else
              match Op.ofText? op.value with
              | none =>
                .error (.parse ("不支持的操作符: " ++ String.ofList op.value) op.pos)
              | some o => .ok (o.apply floats left.value right.value, rest)

/-- The loop of `_or_expr` and `_and_expr`. -/
def moreOperands (separator : TokenType) (combine : Bool → Bool → Bool)
    (operand : List Token → Result) : Nat → Bool → List Token → Result
  | 0, _, _ => .error .fuel
  | fuel + 1, left, tokens => do
      match ← matchType separator tokens with
      | none => return (left, tokens)
      | some rest =>
        let (right, rest) ← operand rest
        moreOperands separator combine operand fuel (combine left right) rest

def operands (separator : TokenType) (combine : Bool → Bool → Bool)
    (operand : List Token → Result) (tokens : List Token) : Result := do
  let (left, rest) ← operand tokens
  moreOperands separator combine operand (rest.length + 1) left rest

/-- `_primary`, for the rule of expressions. -/
def primary (floats : Floats) (expr : List Token → Result) (tokens : List Token) : Result := do
  match ← matchType .lparen tokens with
  | none => comparison floats tokens
  | some rest =>
    let (result, rest) ← expr rest
    let rest ← expect .rparen "缺少右括号 ')'" rest
    return (result, rest)

/-- `_unary_expr`; the fuel is the depth of the recursion. -/
def unaryExpr (floats : Floats) : Nat → List Token → Result
  | 0, _ => .error .fuel
  | depth + 1, tokens => do
      match ← matchType .not tokens with
      | some rest =>
        let (value, rest) ← unaryExpr floats depth rest
        return (!value, rest)
      | none =>
        primary floats
          (operands .or or (operands .and and (unaryExpr floats depth))) tokens

def andExpr (floats : Floats) (depth : Nat) : List Token → Result :=
  operands .and and (unaryExpr floats depth)

/-- `_or_expr`, and `_expr`. -/
def orExpr (floats : Floats) (depth : Nat) : List Token → Result :=
  operands .or or (andExpr floats depth)

/-- `Parser(tokens).parse()`. -/
def parse (floats : Floats) (tokens : List Token) : Except ParserError Bool := do
  let (result, rest) ← orExpr floats tokens.length tokens
  let _ ← expect .eof "表达式后有额外内容" rest
  return result

/-! ## The grammar -/

inductive Rule where
  | orExpr
  | andExpr
  | unary
  | primary
  | comparison
  deriving DecidableEq

/-- **The documented grammar**, with the value of a derivation. -/
inductive Derives (floats : Floats) : Rule → List Token → Bool → Prop where
  | or {ts : List Token} {b : Bool} : Derives floats .andExpr ts b → Derives floats .orExpr ts b
  | orMore {ts us : List Token} {t : Token} {b c : Bool} : Derives floats .orExpr ts b →
      t.type = .or → Derives floats .andExpr us c →
      Derives floats .orExpr (ts ++ t :: us) (b || c)
  | and {ts : List Token} {b : Bool} : Derives floats .unary ts b → Derives floats .andExpr ts b
  | andMore {ts us : List Token} {t : Token} {b c : Bool} : Derives floats .andExpr ts b →
      t.type = .and → Derives floats .unary us c →
      Derives floats .andExpr (ts ++ t :: us) (b && c)
  | not {ts : List Token} {t : Token} {b : Bool} : t.type = .not → Derives floats .unary ts b →
      Derives floats .unary (t :: ts) (!b)
  | primary {ts : List Token} {b : Bool} : Derives floats .primary ts b →
      Derives floats .unary ts b
  | parens {ts : List Token} {t u : Token} {b : Bool} : t.type = .lparen →
      Derives floats .orExpr ts b → u.type = .rparen →
      Derives floats .primary (t :: ts ++ [u]) b
  | compare {ts : List Token} {b : Bool} : Derives floats .comparison ts b →
      Derives floats .primary ts b
  | comparison {left op right : Token} {o : Op} : left.isValue = true → op.type = .op →
      Op.ofText? op.value = some o → right.isValue = true →
      Derives floats .comparison [left, op, right] (o.apply floats left.value right.value)

/-! ## Lists of operands -/

variable {type : TokenType} {tokens : List Token} {t : Token}

lemma matchType_some {rest : List Token} (h : matchType type tokens = .ok (some rest)) :
    ∃ t, tokens = t :: rest ∧ t.type = type := by
  cases tokens with
  | nil => cases h
  | cons t others =>
    have hif := ok.inj h
    split at hif
    · next ht =>
      obtain rfl := some.inj hif
      exact ⟨t, rfl, ht⟩
    cases hif

def Sound (p : List Token → Result) (D : List Token → Bool → Prop) : Prop :=
  ∀ {tokens : List Token} {b : Bool} {rest : List Token}, p tokens = .ok (b, rest) →
    ∃ ts, tokens = ts ++ rest ∧ ts ≠ [] ∧ D ts b

def HasEof (tokens : List Token) : Prop := ∃ t ∈ tokens, t.type = .eof

def Safe (p : List Token → Result) (n : Nat) : Prop :=
  ∀ {tokens : List Token}, HasEof tokens → tokens.length ≤ n →
    (∃ b rest, p tokens = .ok (b, rest) ∧ HasEof rest ∧ rest.length < tokens.length)
      ∨ ∃ message pos, p tokens = .error (.parse message pos)

lemma Sound.shorter {p : List Token → Result} {D : List Token → Bool → Prop} (h : Sound p D)
    {rest : List Token} {b : Bool} (hp : p tokens = .ok (b, rest)) :
    rest.length < tokens.length := by
  obtain ⟨_, rfl, hne, -⟩ := h hp
  have hpos := length_pos_iff.2 hne
  rw [length_append]
  omega

section
variable {separator : TokenType} {combine : Bool → Bool → Bool} {operand : List Token → Result}
  {D E : List Token → Bool → Prop} {b : Bool} {fuel n : Nat} {tokens : List Token}

lemma moreOperands_sound (hoperand : Sound operand D)
    (hmore : ∀ {ts us : List Token} {t : Token} {b c : Bool}, E ts b → t.type = separator →
      D us c → E (ts ++ t :: us) (combine b c)) {read rest : List Token} {r : Bool}
    (hread : E read b) (h : moreOperands separator combine operand fuel b tokens = .ok (r, rest)) :
    ∃ ts, tokens = ts ++ rest ∧ E (read ++ ts) r := by
  induction fuel generalizing read tokens b with
  | zero => cases h
  | succ fuel ih =>
    obtain ⟨found, hfound, h⟩ := bind_eq_ok_iff.1 h
    cases found with
    | none =>
      obtain ⟨rfl, rfl⟩ := Prod.mk.inj (ok.inj h)
      exact ⟨[], rfl, (append_nil read).symm ▸ hread⟩
    | some =>
      obtain ⟨t, rfl, ht⟩ := matchType_some hfound
      obtain ⟨⟨c, _⟩, hc, hleft⟩ := bind_eq_ok_iff.1 h
      obtain ⟨us, rfl, -, hus⟩ := hoperand hc
      obtain ⟨ts, rfl, hts⟩ := ih (hmore hread ht hus) hleft
      refine ⟨t :: us ++ ts, ?_, ?_⟩
      · rw [cons_append, cons_append, append_assoc]
      rw [← append_assoc]
      exact hts

lemma operands_sound (hoperand : Sound operand D) (hone : ∀ {ts : List Token} {b : Bool},
      D ts b → E ts b)
    (hmore : ∀ {ts us : List Token} {t : Token} {b c : Bool}, E ts b → t.type = separator →
      D us c → E (ts ++ t :: us) (combine b c)) : Sound (operands separator combine operand) E := by
  intro _ _ _ h
  obtain ⟨⟨b, _⟩, hb, hleft⟩ := bind_eq_ok_iff.1 h
  obtain ⟨ts, rfl, hne, hts⟩ := hoperand hb
  obtain ⟨us, rfl, hus⟩ := moreOperands_sound hoperand hmore (hone hts) hleft
  refine ⟨ts ++ us, (append_assoc _ _ _).symm, ?_, hus⟩
  intro hnil
  exact hne (append_eq_nil_iff.1 hnil).1

lemma moreOperands_fuel (hoperand : Sound operand D) {m : Nat} (hn : tokens.length < n)
    (hm : tokens.length < m) : moreOperands separator combine operand n b tokens
      = moreOperands separator combine operand m b tokens := by
  induction n generalizing m b tokens with
  | zero => exact absurd hn (Nat.not_lt_zero _)
  | succ n ih =>
    cases m with
    | zero => exact absurd hm (Nat.not_lt_zero _)
    | succ =>
      rw [moreOperands, moreOperands]
      cases hfound : matchType separator tokens with
      | error => rfl
      | ok found =>
        cases found with
        | none => rfl
        | some others =>
          obtain ⟨_, rfl, -⟩ := matchType_some hfound
          cases hc : operand others with
          | error =>
            show operand others >>= _ = operand others >>= _
            rw [hc]
            rfl
          | ok =>
            show operand others >>= _ = operand others >>= _
            rw [hc]
            have hlt := hoperand.shorter hc
            rw [length_cons] at hn hm
            exact ih (by omega) (by omega)

lemma moreOperands_safe (hoperand : Safe operand n) (heof : HasEof tokens)
    (hn : tokens.length ≤ n) (hsep : separator ≠ .eof) (hfuel : tokens.length < fuel) :
    (∃ r rest, moreOperands separator combine operand fuel b tokens = .ok (r, rest)
        ∧ HasEof rest ∧ rest.length ≤ tokens.length)
      ∨ ∃ message pos, moreOperands separator combine operand fuel b tokens
          = .error (.parse message pos) := by
  induction fuel generalizing b tokens with
  | zero => exact absurd hfuel (Nat.not_lt_zero _)
  | succ fuel ih =>
    cases tokens with
    | nil =>
      obtain ⟨t, ht, -⟩ := heof
      cases ht
    | cons t others =>
      rw [moreOperands]
      by_cases ht : t.type = separator
      · have hothers : HasEof others := by
          obtain ⟨u, hu, htype⟩ := heof
          rcases mem_cons.1 hu with rfl | hu
          · exact absurd (ht.symm.trans htype) hsep
          exact ⟨u, hu, htype⟩
        rw [length_cons] at hn hfuel
        have hstep : ∀ c left, operand others = .ok (c, left) →
            (matchType separator (t :: others) >>= fun found =>
              match found with
              | none => pure (b, t :: others)
              | some rest => operand rest >>= fun p =>
                moreOperands separator combine operand fuel (combine b p.1) p.2)
              = moreOperands separator combine operand fuel (combine b c) left := by
          intro c left hc
          show (matchType separator (t :: others)) >>= _ = _
          rw [matchType, if_pos ht]
          show operand others >>= _ = _
          rw [hc]
          rfl
        rcases hoperand hothers (by omega) with ⟨c, left, hc, hleft, _⟩ | ⟨message, pos, he⟩
        · rcases ih hleft (by omega) (by omega) with ⟨r, rest, hr, hrest, _⟩ | ⟨message, pos, he⟩
          · exact .inl ⟨r, rest, (hstep c left hc).trans hr, hrest, by rw [length_cons]; omega⟩
          exact .inr ⟨message, pos, (hstep c left hc).trans he⟩
        refine .inr ⟨message, pos, ?_⟩
        rw [matchType, if_pos ht]
        show operand others >>= _ = _
        rw [he]
        rfl
      refine .inl ⟨b, t :: others, ?_, heof, le_rfl⟩
      rw [matchType, if_neg ht]
      rfl

lemma operands_safe (hoperand : Safe operand n) (hsep : separator ≠ .eof) :
    Safe (operands separator combine operand) n := by
  intro _ heof hn
  rw [operands]
  rcases hoperand heof hn with ⟨b, left, hb, hleft, _⟩ | ⟨message, pos, he⟩
  · rw [hb]
    have hmore : (∃ r rest, moreOperands separator combine operand (left.length + 1) b left
          = .ok (r, rest) ∧ HasEof rest ∧ rest.length ≤ left.length)
        ∨ ∃ message pos, moreOperands separator combine operand (left.length + 1) b left
          = .error (.parse message pos) :=
      moreOperands_safe hoperand hleft (by omega) hsep (Nat.lt_succ_self _)
    rcases hmore with ⟨r, rest, hr, hrest, _⟩ | ⟨message, pos, he⟩
    · exact .inl ⟨r, rest, hr, hrest, by omega⟩
    exact .inr ⟨message, pos, he⟩
  rw [he]
  exact .inr ⟨message, pos, rfl⟩

end

/-! ## The rules -/

variable (floats : Floats)

lemma comparison_sound : Sound (comparison floats) (Derives floats .comparison) := by
  intro tokens _ _ h
  cases tokens with
  | nil => cases h
  | cons left others =>
    unfold comparison at h
    simp only at h
    split at h
    · cases h
    next hleft =>
    cases others with
    | nil => cases h
    | cons op others =>
      simp only at h
      split at h
      · cases h
      next hop =>
      cases others with
      | nil => cases h
      | cons right others =>
        simp only at h
        split at h
        · cases h
        next hright =>
        split at h
        · cases h
        next o ho =>
        obtain ⟨rfl, rfl⟩ := Prod.mk.inj (ok.inj h)
        refine ⟨[left, op, right], rfl, cons_ne_nil _ _, ?_⟩
        exact .comparison (eq_true_of_ne_false hleft) (not_not.1 hop) ho
          (eq_true_of_ne_false hright)

lemma HasEof.tail {t : Token} {rest : List Token} (h : HasEof (t :: rest)) (ht : t.type ≠ .eof) :
    HasEof rest := by
  obtain ⟨u, hu, htype⟩ := h
  rcases mem_cons.1 hu with rfl | hu
  · exact absurd htype ht
  exact ⟨u, hu, htype⟩

lemma HasEof.exists_cons (h : HasEof tokens) : ∃ t rest, tokens = t :: rest := by
  obtain ⟨_, hu, -⟩ := h
  exact ⟨_, _, (cons_head_tail (ne_nil_of_mem hu)).symm⟩

lemma Token.ne_eof_of_isValue (h : t.isValue = true) : t.type ≠ .eof := by
  intro heof
  rw [Token.isValue, heof] at h
  cases h

lemma comparison_safe (n : Nat) : Safe (comparison floats) n := by
  intro _ heof _
  obtain ⟨_, others, rfl⟩ := heof.exists_cons
  unfold comparison
  simp only
  split
  case isTrue => exact .inr ⟨_, _, rfl⟩
  case isFalse hleft =>
    have heof := heof.tail (Token.ne_eof_of_isValue (eq_true_of_ne_false hleft))
    obtain ⟨_, others, rfl⟩ := heof.exists_cons
    simp only
    split
    case isTrue => exact .inr ⟨_, _, rfl⟩
    case isFalse hop =>
      have heof := heof.tail (by rw [not_not.1 hop]; decide)
      obtain ⟨_, others, rfl⟩ := heof.exists_cons
      simp only
      split
      case isTrue => exact .inr ⟨_, _, rfl⟩
      case isFalse hright =>
        have heof := heof.tail (Token.ne_eof_of_isValue (eq_true_of_ne_false hright))
        split
        · exact .inr ⟨_, _, rfl⟩
        exact .inl ⟨_, _, rfl, heof, by simp only [length_cons]; omega⟩

lemma expect_ok {message : String} {rest : List Token}
    (h : expect type message tokens = .ok rest) : ∃ t, tokens = t :: rest ∧ t.type = type := by
  cases tokens with
  | nil => cases h
  | cons t others =>
    rw [expect] at h
    split at h
    · next ht =>
      obtain rfl := ok.inj h
      exact ⟨t, rfl, ht⟩
    cases h

/-! One step of `_unary_expr`, for each type of the token. -/

section
variable {t : Token} {rest : List Token} {depth : Nat}

lemma unaryExpr_not (ht : t.type = .not) : unaryExpr floats (depth + 1) (t :: rest)
      = (unaryExpr floats depth rest).map (fun r => (!r.1, r.2)) := by
  rw [unaryExpr, matchType, if_pos ht]
  show (unaryExpr floats depth rest >>= fun r => pure (!r.1, r.2)) = _
  cases unaryExpr floats depth rest with
  | _ => rfl

lemma unaryExpr_parens (ht : t.type = .lparen) : unaryExpr floats (depth + 1) (t :: rest)
      = (orExpr floats depth rest).bind (fun r =>
          (expect .rparen "缺少右括号 ')'" r.2).map (fun rest => (r.1, rest))) := by
  rw [unaryExpr, matchType, if_neg (by rw [ht]; decide)]
  show primary floats (orExpr floats depth) (t :: rest) = _
  rw [primary, matchType, if_pos ht]
  show (orExpr floats depth rest >>= fun r => expect .rparen "缺少右括号 ')'" r.2 >>= fun rest =>
    pure (r.1, rest)) = _
  cases orExpr floats depth rest with
  | error => rfl
  | ok r =>
    show (expect .rparen "缺少右括号 ')'" r.2 >>= fun rest => pure (r.1, rest)) = _
    show _ = (expect .rparen "缺少右括号 ')'" r.2).map (fun rest => (r.1, rest))
    cases expect .rparen "缺少右括号 ')'" r.2 with
    | _ => rfl

lemma unaryExpr_comparison (hnot : t.type ≠ .not) (hparen : t.type ≠ .lparen) :
    unaryExpr floats (depth + 1) (t :: rest) = comparison floats (t :: rest) := by
  rw [unaryExpr, matchType, if_neg hnot]
  show primary floats (orExpr floats depth) (t :: rest) = _
  rw [primary, matchType, if_neg hparen]
  rfl

end

lemma orExpr_sound {depth : Nat} (h : Sound (unaryExpr floats depth) (Derives floats .unary)) :
    Sound (orExpr floats depth) (Derives floats .orExpr) :=
  operands_sound (operands_sound h .and .andMore) .or .orMore

lemma unaryExpr_sound (depth : Nat) : Sound (unaryExpr floats depth) (Derives floats .unary) := by
  induction depth with
  | zero =>
    intro tokens b rest h
    cases h
  | succ depth ih =>
    intro tokens b rest h
    cases tokens with
    | nil => cases h
    | cons t others =>
      by_cases hnot : t.type = .not
      · rw [unaryExpr_not floats hnot] at h
        cases hc : unaryExpr floats depth others with
        | error =>
          rw [hc] at h
          cases h
        | ok =>
          rw [hc] at h
          obtain ⟨rfl, rfl⟩ := Prod.mk.inj (ok.inj h)
          obtain ⟨ts, rfl, -, hts⟩ := ih hc
          exact ⟨t :: ts, rfl, cons_ne_nil _ _, .not hnot hts⟩
      by_cases hparen : t.type = .lparen
      · rw [unaryExpr_parens floats hparen] at h
        cases hc : orExpr floats depth others with
        | error =>
          rw [hc] at h
          cases h
        | ok r =>
          rw [hc] at h
          obtain ⟨ts, rfl, -, hts⟩ := orExpr_sound floats ih hc
          cases hclose : expect .rparen "缺少右括号 ')'" r.2 with
          | error =>
            simp only [Except.bind, hclose] at h
            cases h
          | ok =>
            simp only [Except.bind, hclose] at h
            obtain ⟨rfl, rfl⟩ := Prod.mk.inj (ok.inj h)
            obtain ⟨u, hu, htype⟩ := expect_ok hclose
            refine ⟨t :: ts ++ [u], ?_, cons_ne_nil _ _, .primary (.parens hparen hts htype)⟩
            rw [hu, append_assoc]
            rfl
      rw [unaryExpr_comparison floats hnot hparen] at h
      obtain ⟨ts, htokens, hne, hts⟩ := comparison_sound floats h
      exact ⟨ts, htokens, hne, .primary (.compare hts)⟩

lemma unaryExpr_safe (n : Nat) : Safe (unaryExpr floats n) n := by
  induction n with
  | zero =>
    intro tokens heof hn
    obtain ⟨t, rest, rfl⟩ := heof.exists_cons
    exact absurd hn (Nat.not_succ_le_zero _)
  | succ n ih =>
    intro tokens heof hn
    obtain ⟨t, rest, rfl⟩ := heof.exists_cons
    rw [length_cons] at hn
    by_cases hnot : t.type = .not
    · rw [unaryExpr_not floats hnot]
      have hrest := heof.tail (by rw [hnot]; decide)
      rcases ih hrest (by omega) with ⟨b, left, hb, hleft, hlt⟩ | ⟨message, pos, he⟩
      · rw [hb]
        exact .inl ⟨_, left, rfl, hleft, by rw [length_cons]; omega⟩
      rw [he]
      exact .inr ⟨message, pos, rfl⟩
    by_cases hparen : t.type = .lparen
    · rw [unaryExpr_parens floats hparen]
      have hrest := heof.tail (by rw [hparen]; decide)
      have hexpr : Safe (orExpr floats n) n :=
        operands_safe (operands_safe ih (by decide)) (by decide)
      rcases hexpr hrest (by omega) with ⟨b, left, hb, hleft, hlt⟩ | ⟨message, pos, he⟩
      · rw [hb]
        obtain ⟨_, behind, rfl⟩ := hleft.exists_cons
        simp only [Except.bind, expect]
        split
        · next hu =>
          have hbehind := hleft.tail (by rw [hu]; decide)
          refine .inl ⟨b, behind, rfl, hbehind, ?_⟩
          simp only [length_cons] at hlt ⊢
          omega
        exact .inr ⟨_, _, rfl⟩
      rw [he]
      exact .inr ⟨message, pos, rfl⟩
    rw [unaryExpr_comparison floats hnot hparen]
    exact comparison_safe floats _ heof le_rfl

/-! ## Every phrase is read -/

def Reads : Rule → List Token → Bool → Prop
  | .orExpr, ts, b => ∀ n t rest, ts.length ≤ n → t.type ≠ .and →
      orExpr floats n (ts ++ t :: rest)
        = moreOperands .or or (andExpr floats n) (rest.length + 2) b (t :: rest)
  | .andExpr, ts, b => ∀ n t rest, ts.length ≤ n →
      andExpr floats n (ts ++ t :: rest)
        = moreOperands .and and (unaryExpr floats n) (rest.length + 2) b (t :: rest)
  | .comparison, ts, b => ts ≠ [] ∧ (∀ t ∈ ts.head?, t.type ≠ .not ∧ t.type ≠ .lparen)
      ∧ ∀ rest, comparison floats (ts ++ rest) = .ok (b, rest)
  | _, ts, b => ∀ n rest, ts.length ≤ n → unaryExpr floats n (ts ++ rest) = .ok (b, rest)

section
variable {floats} {t : Token} {fuel : Nat} {combine : Bool → Bool → Bool}
  {operand : List Token → Result} {separator : TokenType} {b : Bool}

lemma moreOperands_stop {rest : List Token} (ht : t.type ≠ separator) :
    moreOperands separator combine operand (fuel + 1) b (t :: rest) = .ok (b, t :: rest) := by
  rw [moreOperands, matchType, if_neg ht]
  rfl

lemma moreOperands_next {c : Bool} {others rest : List Token} (ht : t.type = separator)
    (hc : operand others = .ok (c, rest)) :
    moreOperands separator combine operand (fuel + 1) b (t :: others)
      = moreOperands separator combine operand fuel (combine b c) rest := by
  rw [moreOperands, matchType, if_pos ht]
  show operand others >>= _ = _
  rw [hc]
  rfl

lemma reads_of_derives {rule : Rule} {ts : List Token} (h : Derives floats rule ts b) :
    Reads floats rule ts b := by
  induction h with
  | or _ ih =>
    intro n t rest hn ht
    rw [orExpr, operands, ih n t rest hn, moreOperands_stop ht]
    rfl
  | orMore _ ht _ ihone ihmore =>
    rename_i ts us t b c _ _
    intro n u rest hn hu
    rw [length_append, length_cons] at hn
    rw [append_assoc, cons_append, ihone n t _ (by omega) (by rw [ht]; decide)]
    have hoperand : andExpr floats n (us ++ u :: rest) = .ok (c, u :: rest) := by
      rw [ihmore n u rest (by omega), moreOperands_stop hu]
    rw [moreOperands_next ht hoperand]
    have hsound : Sound (andExpr floats n) (Derives floats .andExpr) :=
      operands_sound (unaryExpr_sound floats n) .and .andMore
    apply moreOperands_fuel hsound
    · rw [length_append, length_cons]
      omega
    rw [length_cons]
    omega
  | and _ ih =>
    intro n t rest hn
    rw [andExpr, operands, ih n (t :: rest) hn]
    rfl
  | andMore _ ht _ ihone ihmore =>
    rename_i ts us t b c _ _
    intro n u rest hn
    rw [length_append, length_cons] at hn
    rw [append_assoc, cons_append, ihone n t _ (by omega)]
    rw [moreOperands_next ht (ihmore n (u :: rest) (by omega))]
    apply moreOperands_fuel (unaryExpr_sound floats n)
    · rw [length_append, length_cons]
      omega
    rw [length_cons]
    omega
  | not ht _ ih =>
    intro n rest hn
    cases n with
    | zero => cases hn
    | succ n =>
      rw [cons_append, unaryExpr_not floats ht, ih n rest (Nat.le_of_succ_le_succ hn)]
      rfl
  | primary _ ih => exact ih
  | parens ht _ hu ih =>
    rename_i ts t u b _
    intro n rest hn
    rw [length_append, length_cons, length_singleton] at hn
    cases n with
    | zero => cases hn
    | succ n =>
      rw [append_assoc, cons_append, unaryExpr_parens floats ht]
      show (orExpr floats n (ts ++ u :: rest)).bind _ = _
      rw [ih n u rest (by omega) (by rw [hu]; decide), moreOperands_stop (by rw [hu]; decide)]
      simp only [Except.bind, expect, if_pos hu]
      rfl
  | compare _ ih =>
    rename_i ts b _
    intro n rest hn
    obtain ⟨hne, hhead, hread⟩ := ih
    cases ts with
    | nil => exact absurd rfl hne
    | cons t =>
      cases n with
      | zero => cases hn
      | succ =>
        obtain ⟨hnot, hparen⟩ := hhead t rfl
        rw [cons_append, unaryExpr_comparison floats hnot hparen]
        exact hread rest
  | comparison hleft hop ho hright =>
    rename_i left op right o
    refine ⟨cons_ne_nil _ _, ?_, ?_⟩
    · intro t ht
      obtain rfl := some.inj ht
      constructor
      all_goals
        intro htype
        rw [Token.isValue, htype] at hleft
        cases hleft
    intro rest
    show comparison floats (left :: op :: right :: rest) = _
    unfold comparison
    simp only [hleft, hop, ho, hright, ne_eq, not_true_eq_false, if_false, Bool.true_eq_false]

end

/-! ## The whole list -/

theorem eof_last {body ts behind : List Token} {e : Token} (hbody : ∀ u ∈ body, u.type ≠ .eof)
    (h : body ++ [e] = ts ++ t :: behind) (ht : t.type = .eof) : body = ts ∧ e = t := by
  rcases eq_nil_or_concat behind with rfl | ⟨others, last, rfl⟩
  · exact concat_inj.1 (by rw [concat_eq_append, concat_eq_append, h])
  rw [concat_eq_append, ← cons_append, ← append_assoc] at h
  have hinit := (append_inj' h rfl).1
  refine absurd ht (hbody t ?_)
  rw [hinit]
  exact mem_append_right _ mem_cons_self

/-- **The parser returns the values of the derivations.**  For a list whose only
end is the last token: the value is returned exactly if the other tokens derive
from the grammar with it; every other list is refused with a `ParseError`; and
nothing is read past the end. -/
theorem parse_ok_iff {body : List Token} {e : Token} (he : e.type = .eof)
    (hbody : ∀ t ∈ body, t.type ≠ .eof) :
    (∀ b, parse floats (body ++ [e]) = .ok b ↔ Derives floats .orExpr body b)
      ∧ ((∀ b, ¬ Derives floats .orExpr body b) →
          ∃ message pos, parse floats (body ++ [e]) = .error (.parse message pos))
      ∧ parse floats (body ++ [e]) ≠ .error .index := by
  have heof : HasEof (body ++ [e]) := ⟨e, mem_append_right _ mem_cons_self, he⟩
  have hvalue : ∀ b, parse floats (body ++ [e]) = .ok b ↔ Derives floats .orExpr body b := by
    intro b
    constructor
    · intro h
      obtain ⟨⟨c, rest⟩, hc, hend⟩ := bind_eq_ok_iff.1 h
      obtain ⟨behind, hbehind, hreturn⟩ := bind_eq_ok_iff.1 hend
      obtain rfl := ok.inj hreturn
      obtain ⟨t, rfl, ht⟩ := expect_ok hbehind
      obtain ⟨_, htokens, -, hts⟩ := orExpr_sound floats (unaryExpr_sound floats _) hc
      obtain ⟨rfl, -⟩ := eof_last hbody htokens ht
      exact hts
    intro h
    have hread := reads_of_derives h (body ++ [e]).length e [] (by rw [length_append]; omega)
      (by rw [he]; decide)
    rw [parse, hread, moreOperands_stop (by rw [he]; decide)]
    show (expect .eof "表达式后有额外内容" [e] >>= fun _ => pure b) = _
    rw [expect, if_pos he]
    rfl
  have hrefused : (∃ b, parse floats (body ++ [e]) = .ok b)
      ∨ ∃ message pos, parse floats (body ++ [e]) = .error (.parse message pos) := by
    have hexpr : Safe (orExpr floats (body ++ [e]).length) (body ++ [e]).length :=
      operands_safe (operands_safe (unaryExpr_safe floats _) (by decide)) (by decide)
    rw [parse]
    rcases hexpr heof le_rfl with ⟨b, rest, hb, hrest, -⟩ | ⟨message, pos, herror⟩
    · rw [hb]
      obtain ⟨t, behind, rfl⟩ := hrest.exists_cons
      show (∃ c, (expect .eof "表达式后有额外内容" (t :: behind) >>= fun _ => pure b) = .ok c) ∨
        ∃ message pos, (expect .eof "表达式后有额外内容" (t :: behind) >>= fun _ => pure b)
          = .error (.parse message pos)
      rw [expect]
      split
      · exact .inl ⟨b, rfl⟩
      exact .inr ⟨_, _, rfl⟩
    rw [herror]
    exact .inr ⟨message, pos, rfl⟩
  refine ⟨hvalue, fun hnone => ?_, fun hindex => ?_⟩
  · rcases hrefused with ⟨b, hb⟩ | herror
    · exact absurd ((hvalue b).1 hb) (hnone b)
    exact herror
  rcases hrefused with ⟨b, hb⟩ | ⟨message, pos, herror⟩
  · rw [hb] at hindex
    cases hindex
  rw [herror] at hindex
  cases hindex

def wholeFloats : Floats where
  Value := Nat
  ofText? := natValue?
  ge x y := decide (y ≤ x)
  le x y := decide (x ≤ y)
  gt x y := decide (y < x)
  lt x y := decide (x < y)

/-- `NOT ( 3 >= 10 )` -/
def notGreater : List Token :=
  [{ type := .not, value := "NOT".toList, pos := 0 }, { type := .lparen, value := ['('], pos := 3 },
    { type := .number, value := ['3'], pos := 5 }, { type := .op, value := ['>', '='], pos := 7 },
    { type := .number, value := "10".toList, pos := 10 },
    { type := .rparen, value := [')'], pos := 13 }]

theorem parse_ok_iff_notGreater : (∀ b, parse wholeFloats (notGreater ++ [{ type :=.eof, value := [], pos := 15 }]) = .ok b
        ↔ Derives wholeFloats .orExpr notGreater b)
      ∧ ((∀ b, ¬ Derives wholeFloats .orExpr notGreater b) → ∃ message pos,
          parse wholeFloats (notGreater ++ [{ type := .eof, value := [], pos := 15 }])
            = .error (.parse message pos))
      ∧ parse wholeFloats (notGreater ++ [{ type := .eof, value := [], pos := 15 }])
          ≠ .error .index :=
  parse_ok_iff wholeFloats rfl (by decide)

end DeterminFlow.Workflow.Condition
