/-
  Library.Decimal
  **DECIMAL NUMBERS: THEIR TEXTS AND THEIR ROUNDING.**

  `Decimal(text)` of Python's `decimal` module keeps every digit; the results
  of arithmetic are rounded to the digits of the context, half to even, and
  a result past the largest exponent raises `Overflow`.  A finite decimal is
  the rational number it denotes.
-/
import Mathlib.Algebra.Order.Archimedean.Basic
import Mathlib.Algebra.Order.Field.Power
import Mathlib.Data.Int.Log
import Mathlib.Tactic.Positivity
import DeterminFlow.Library.PyText

namespace DeterminFlow.Library.Decimal

open PyText

/-! ## Reading a decimal -/

/-- The smallest exponent of a decimal, `MIN_ETINY`. -/
def minEtiny : Int := -1999999999999999997

/-- The largest adjusted exponent of a decimal, `MAX_EMAX`. -/
def maxEmax : Int := 999999999999999999

/-- `10 ** e`. -/
def pow10 : Int → Rat
  | .ofNat n => ((10 ^ n : Nat) : Rat)
  | .negSucc n => 1 / ((10 ^ (n + 1) : Nat) : Rat)

def spanDigits : List Char → List Nat × List Char
  | [] => ([], [])
  | c :: rest =>
    match digitValue? c with
    | some d => ((d :: (spanDigits rest).1), (spanDigits rest).2)
    | none => ([], c :: rest)

def ofDigits (digits : List Nat) : Nat := digits.foldl (fun n d => n * 10 + d) 0

/-- A sign in front; `true` for a minus. -/
def splitSign : List Char → Bool × List Char
  | '-' :: rest => (true, rest)
  | '+' :: rest => (false, rest)
  | rest => (false, rest)

def fractionPart : List Char → List Nat × List Char
  | '.' :: rest => spanDigits rest
  | rest => ([], rest)

def exponentPart? : List Char → Option Int
  | [] => some 0
  | c :: rest =>
    if c = 'e' ∨ c = 'E' then
      match splitSign rest with
      | (negative, rest) =>
        match spanDigits rest with
        | (d :: digits, []) =>
          some (if negative then -(ofDigits (d :: digits) : Int) else ofDigits (d :: digits))
        | _ => none
    else none

/-- `Decimal(text)`, when the text writes a finite number: `none` stands for
`InvalidOperation`, an infinity and not-a-number. -/
def parseFinite? (text : String) : Option Rat := do
  let (negative, body) := splitSign ((stripChars text).filter (· ≠ '_'))
  let (whole, rest) := spanDigits body
  let (fraction, rest) := fractionPart rest
  let exponent ← exponentPart? rest
  let digits := whole ++ fraction
  if digits = [] then none
  else
    let exponent := exponent - fraction.length
    -- a number out of the exponent range cannot be stored exactly
    let adjusted := exponent + max 1 (digits.dropWhile (· = 0)).length - 1
    if exponent < minEtiny ∨ maxEmax < adjusted then none
    else
      let value := (ofDigits digits : Rat) * pow10 exponent
      some (if negative then -value else value)

example : parseFinite? " 1_2.50e-1 " = some (5 / 4) := by decide +kernel

/-! ## Rounding half to even -/

def halfEven (q : Rat) : Int :=
  if q - ⌊q⌋ < 1 / 2 then ⌊q⌋
  else if 1 / 2 < q - ⌊q⌋ then ⌊q⌋ + 1
  else if ⌊q⌋ % 2 = 0 then ⌊q⌋ else ⌊q⌋ + 1

/-- `q` to `digits` digits of base `base`, of which none has an exponent below
`lowest`. -/
def roundDigits (base digits : Nat) (lowest : Int) (q : Rat) : Rat :=
  let e := max (Int.log base |q| + 1 - digits) lowest
  halfEven (q / (base : Rat) ^ e) * (base : Rat) ^ e

variable {q : Rat} {n : Int}

lemma halfEven_le (h : q ≤ n) : halfEven q ≤ n := by
  have hfloor : ⌊q⌋ ≤ n := by exact_mod_cast (Int.floor_le q).trans h
  rcases hfloor.lt_or_eq with hlt | heq
  · unfold halfEven
    split
    · omega
    split
    · omega
    split <;> omega
  -- the number is the integer itself
  have hq : q - ⌊q⌋ < 1 / 2 := by
    rw [heq]
    linarith
  rw [halfEven, if_pos hq]
  omega

lemma le_halfEven (h : (n : Rat) ≤ q) : n ≤ halfEven q := by
  have hfloor : n ≤ ⌊q⌋ := Int.le_floor.2 h
  unfold halfEven
  split
  · omega
  split
  · omega
  split <;> omega

lemma le_halfEven_iff (heven : n % 2 = 0) : n ≤ halfEven q ↔ (n : Rat) - 1 / 2 ≤ q := by
  constructor
  · intro h
    by_contra hlt
    have hfloor : ⌊q⌋ < n := Int.floor_lt.2 (by linarith)
    have hle : ⌊q⌋ ≤ n - 1 := by omega
    rcases hle.lt_or_eq with hlt | heq
    · have : halfEven q ≤ n - 1 := halfEven_le (by
        have hsucc := (Int.lt_floor_add_one q).le
        have : ((⌊q⌋ + 1 : Int) : Rat) ≤ ((n - 1 : Int) : Rat) := by exact_mod_cast (by omega : ⌊q⌋ + 1 ≤ n - 1)
        push_cast at this ⊢
        linarith)
      omega
    have hsmall : q - ⌊q⌋ < 1 / 2 := by
      rw [heq]
      push_cast
      linarith
    rw [halfEven, if_pos hsmall] at h
    omega
  intro h
  by_cases hn : (n : Rat) ≤ q
  · exact le_halfEven hn
  have hfloor : ⌊q⌋ = n - 1 := by
    rw [Int.floor_eq_iff]
    push_cast
    constructor <;> linarith
  unfold halfEven
  rw [hfloor]
  push_cast
  rw [if_neg (by linarith)]
  split
  · omega
  rw [if_neg (by omega)]
  omega

lemma halfEven_nonneg (h : 0 ≤ q) : 0 ≤ halfEven q := le_halfEven (by exact_mod_cast h)

lemma roundDigits_nonneg (base digits : Nat) (lowest : Int) (h : 0 ≤ q) :
    0 ≤ roundDigits base digits lowest q := by
  unfold roundDigits
  have hbase : ∀ e : Int, (0 : Rat) ≤ (base : Rat) ^ e := fun e => zpow_nonneg (Nat.cast_nonneg base) e
  apply mul_nonneg _ (hbase _)
  exact_mod_cast halfEven_nonneg (div_nonneg h (hbase _))

/-! ## A context -/

/-- A decimal context: its digits, of which there is one at least, and the
bounds of the exponents. -/
structure Context where
  prec : Nat
  emax : Int
  emin : Int
  one_le_prec : 1 ≤ prec
  emin_le : emin ≤ emax

namespace Context

/-- `DefaultContext`. -/
def default : Context where
  prec := 28
  emax := 999999
  emin := -999999
  one_le_prec := by omega
  emin_le := by omega

variable (ctx : Context)

def etiny : Int := ctx.emin - (ctx.prec - 1)

def rounded (q : Rat) : Rat := roundDigits 10 ctx.prec ctx.etiny q

def limit : Rat := (10 ^ ctx.prec - 1 / 2) * 10 ^ (ctx.emax + 1 - ctx.prec)

/-- The result of an operation whose exact value is `q`; `none` stands for
`Overflow`. -/
def round (q : Rat) : Option Rat :=
  if ctx.rounded |q| < 10 ^ (ctx.emax + 1) then
    some (if q < 0 then -ctx.rounded |q| else ctx.rounded |q|)
  else none

variable {ctx}

lemma rounded_nonneg {q : Rat} (h : 0 ≤ q) : 0 ≤ ctx.rounded q :=
  roundDigits_nonneg 10 ctx.prec ctx.etiny h

@[simp] lemma rounded_zero : ctx.rounded 0 = 0 := by
  have h : halfEven 0 = 0 := by simp [halfEven]
  simp [rounded, roundDigits, h]

lemma limit_pos : 0 < ctx.limit := by
  have h : (1 : Rat) ≤ 10 ^ ctx.prec := one_le_pow₀ (by norm_num)
  exact mul_pos (by linarith) (zpow_pos (by norm_num) _)

lemma limit_lt : ctx.limit < 10 ^ (ctx.emax + 1) := by
  have hpow : (10 : Rat) ^ (ctx.emax + 1) = 10 ^ ctx.prec * 10 ^ (ctx.emax + 1 - ctx.prec) := by
    rw [← zpow_natCast, ← zpow_add₀ (by norm_num)]
    congr 1
    omega
  rw [limit, hpow]
  exact mul_lt_mul_of_pos_right (by linarith) (zpow_pos (by norm_num) _)

lemma pow_lt_limit : (10 : Rat) ^ ctx.emax < ctx.limit := by
  have hpow : (10 : Rat) ^ ctx.emax = 10 ^ (ctx.prec - 1) * 10 ^ (ctx.emax + 1 - ctx.prec) := by
    rw [← zpow_natCast, ← zpow_add₀ (by norm_num)]
    congr 1
    have := ctx.one_le_prec
    omega
  have hten : (10 : Rat) ^ ctx.prec = 10 * 10 ^ (ctx.prec - 1) := by
    rw [← pow_succ', Nat.sub_add_cancel ctx.one_le_prec]
  have hone : (1 : Rat) ≤ 10 ^ (ctx.prec - 1) := one_le_pow₀ (by norm_num)
  rw [limit, hpow, hten]
  exact mul_lt_mul_of_pos_right (by linarith) (zpow_pos (by norm_num) _)

def lastExponent (ctx : Context) (q : Rat) : Int := max (Int.log 10 |q| + 1 - ctx.prec) ctx.etiny

lemma rounded_eq (q : Rat) :
    ctx.rounded q = halfEven (q / 10 ^ ctx.lastExponent q) * 10 ^ ctx.lastExponent q := rfl

variable {m : Int} {q : Rat}

/-- `10 ** m` in units of the last digit. -/
lemma pow_eq {e : Int} (h : e ≤ m) :
    (10 : Rat) ^ m = ((10 ^ (m - e).toNat : Int) : Rat) * 10 ^ e := by
  have hnat : ((m - e).toNat : Int) = m - e := Int.toNat_of_nonneg (by omega)
  push_cast
  rw [← zpow_natCast, hnat, ← zpow_add₀ (by norm_num)]
  congr 1
  omega

lemma rounded_le_pow (he : ctx.lastExponent q ≤ m) (h : q ≤ 10 ^ m) : ctx.rounded q ≤ 10 ^ m := by
  have hpos : (0 : Rat) < 10 ^ ctx.lastExponent q := zpow_pos (by norm_num) _
  rw [pow_eq he] at h ⊢
  rw [rounded_eq]
  apply mul_le_mul_of_nonneg_right _ hpos.le
  exact_mod_cast halfEven_le ((div_le_iff₀ hpos).2 h)

lemma pow_le_rounded (he : ctx.lastExponent q ≤ m) (h : 10 ^ m ≤ q) : 10 ^ m ≤ ctx.rounded q := by
  have hpos : (0 : Rat) < 10 ^ ctx.lastExponent q := zpow_pos (by norm_num) _
  rw [pow_eq he] at h ⊢
  rw [rounded_eq]
  apply mul_le_mul_of_nonneg_right _ hpos.le
  exact_mod_cast le_halfEven ((le_div_iff₀ hpos).2 h)

lemma etiny_le : ctx.etiny ≤ ctx.emax + 1 - ctx.prec := by
  have := ctx.emin_le
  unfold etiny
  omega

/-- Between `10 ** emax` and `10 ** (emax + 1)`, the results are multiples of one
unit. -/
lemma lastExponent_top (hle : 10 ^ ctx.emax ≤ q) (hlt : q < 10 ^ (ctx.emax + 1)) :
    ctx.lastExponent q = ctx.emax + 1 - ctx.prec := by
  have hpos : 0 < q := lt_of_lt_of_le (zpow_pos (by norm_num) _) hle
  have hlow : ctx.emax ≤ Int.log 10 q := (Int.zpow_le_iff_le_log (by norm_num) hpos).1 (by exact_mod_cast hle)
  have hhigh : Int.log 10 q < ctx.emax + 1 := by
    by_contra h
    have := (Int.zpow_le_iff_le_log (b := 10) (by norm_num) hpos).2 (not_lt.1 h)
    push_cast at this
    linarith
  have := @etiny_le ctx
  rw [lastExponent, abs_of_pos hpos]
  omega

lemma lastExponent_le (hq : 0 < q) (hm : ctx.emin ≤ m) (h : q < 10 ^ (m + 1)) :
    ctx.lastExponent q ≤ m := by
  have hhigh : Int.log 10 q < m + 1 := by
    by_contra hcon
    have := (Int.zpow_le_iff_le_log (b := 10) (by norm_num) hq).2 (not_lt.1 hcon)
    push_cast at this
    linarith
  have hprec := ctx.one_le_prec
  rw [lastExponent, abs_of_pos hq, etiny]
  omega

/-- Below `10 ** emax` nothing overflows. -/
lemma rounded_small (h0 : 0 ≤ q) (h : q < 10 ^ ctx.emax) : ctx.rounded q ≤ 10 ^ ctx.emax := by
  rcases h0.eq_or_lt with rfl | hpos
  · rw [rounded_zero]
    positivity
  have hnext : q < 10 ^ (ctx.emax + 1) :=
    h.trans_le (zpow_le_zpow_right₀ (by norm_num) (by omega))
  exact rounded_le_pow (lastExponent_le hpos ctx.emin_le hnext) h.le

/-- Above `10 ** (emax + 1)` everything overflows. -/
lemma rounded_large (h : 10 ^ (ctx.emax + 1) ≤ q) : 10 ^ (ctx.emax + 1) ≤ ctx.rounded q := by
  have hpos : 0 < q := lt_of_lt_of_le (zpow_pos (by norm_num) _) h
  have hlow : ctx.emax + 1 ≤ Int.log 10 q :=
    (Int.zpow_le_iff_le_log (by norm_num) hpos).1 (by exact_mod_cast h)
  have hself : (10 : Rat) ^ Int.log 10 q ≤ q := by
    exact_mod_cast Int.zpow_log_le_self (by norm_num) hpos
  have hexp : ctx.lastExponent q ≤ Int.log 10 q := by
    have := @etiny_le ctx
    have := ctx.one_le_prec
    rw [lastExponent, abs_of_pos hpos]
    omega
  calc (10 : Rat) ^ (ctx.emax + 1)
      ≤ 10 ^ Int.log 10 q := zpow_le_zpow_right₀ (by norm_num) hlow
    _ ≤ ctx.rounded q := pow_le_rounded hexp hself

lemma even_pow : ((10 : Int) ^ ctx.prec) % 2 = 0 := by
  have h : (10 : Int) ^ ctx.prec = 10 * 10 ^ (ctx.prec - 1) := by
    rw [← pow_succ', Nat.sub_add_cancel ctx.one_le_prec]
  rw [h]
  omega

lemma rounded_lt_iff (h0 : 0 ≤ q) : ctx.rounded q < 10 ^ (ctx.emax + 1) ↔ q < ctx.limit := by
  rcases lt_or_ge q (10 ^ ctx.emax) with hsmall | hmiddle
  · have hstep : (10 : Rat) ^ ctx.emax < 10 ^ (ctx.emax + 1) := pow_lt_limit.trans limit_lt
    exact iff_of_true ((rounded_small h0 hsmall).trans_lt hstep) (hsmall.trans pow_lt_limit)
  rcases lt_or_ge q (10 ^ (ctx.emax + 1)) with htop | hlarge
  · -- the top decade: half a unit below its end the result is rounded up to it
    have hexp := lastExponent_top hmiddle htop
    have hpos : (0 : Rat) < 10 ^ (ctx.emax + 1 - ctx.prec) := zpow_pos (by norm_num) _
    have hle : ctx.emax + 1 - ctx.prec ≤ ctx.emax + 1 := by omega
    have hnat : (ctx.emax + 1 - (ctx.emax + 1 - ctx.prec)).toNat = ctx.prec := by omega
    have hup : (10 ^ ctx.prec : Int) ≤ halfEven (q / 10 ^ (ctx.emax + 1 - ctx.prec))
        ↔ ctx.limit ≤ q := by
      rw [le_halfEven_iff even_pow, le_div_iff₀ hpos, limit]
      push_cast
      rfl
    rw [rounded_eq, hexp, pow_eq hle, hnat, mul_lt_mul_iff_left₀ hpos, Int.cast_lt, ← not_le, hup,
      not_le]
  exact iff_of_false (not_lt.2 (rounded_large hlarge)) (not_lt.2 (limit_lt.le.trans hlarge))

lemma round_isSome_iff (q : Rat) : (ctx.round q).isSome ↔ |q| < ctx.limit := by
  unfold round
  split
  · next h => exact iff_of_true rfl ((rounded_lt_iff (abs_nonneg q)).1 h)
  next h =>
  exact iff_of_false Bool.false_ne_true (fun hq => h ((rounded_lt_iff (abs_nonneg q)).2 hq))

lemma round_eq (h0 : 0 ≤ q) (h : q < ctx.limit) : ctx.round q = some (ctx.rounded q) := by
  unfold round
  rw [abs_of_nonneg h0, if_pos ((rounded_lt_iff h0).2 h), if_neg (not_lt.2 h0)]

lemma rounded_lt_limit (h0 : 0 ≤ q) (h : q < ctx.limit) : ctx.rounded q < ctx.limit := by
  rcases lt_or_ge q (10 ^ ctx.emax) with hsmall | hmiddle
  · exact (rounded_small h0 hsmall).trans_lt pow_lt_limit
  have htop := h.trans limit_lt
  have hexp := lastExponent_top hmiddle htop
  have hpos : (0 : Rat) < 10 ^ (ctx.emax + 1 - ctx.prec) := zpow_pos (by norm_num) _
  have hdown : halfEven (q / 10 ^ (ctx.emax + 1 - ctx.prec)) < 10 ^ ctx.prec := by
    rw [← not_le, le_halfEven_iff even_pow, le_div_iff₀ hpos, not_le]
    push_cast
    exact h
  have hunits : ((halfEven (q / 10 ^ (ctx.emax + 1 - ctx.prec)) : Int) : Rat) ≤ 10 ^ ctx.prec - 1 := by
    have : halfEven (q / 10 ^ (ctx.emax + 1 - ctx.prec)) ≤ 10 ^ ctx.prec - 1 := by omega
    exact_mod_cast this
  rw [rounded_eq, hexp, limit]
  exact mul_lt_mul_of_pos_right (by linarith) hpos

lemma round_again {r : Rat} (h : ctx.round q = some r) : (ctx.round r).isSome := by
  have hsome : (ctx.round q).isSome := by rw [h]; rfl
  have hlimit := (round_isSome_iff q).1 hsome
  have hmagnitude : |r| = ctx.rounded |q| := by
    have h0 := @rounded_nonneg ctx _ (abs_nonneg q)
    unfold round at h
    split at h
    · obtain rfl := Option.some.inj h
      split
      · rw [abs_neg, abs_of_nonneg h0]
      rw [abs_of_nonneg h0]
    cases h
  rw [round_isSome_iff, hmagnitude]
  exact rounded_lt_limit (abs_nonneg q) hlimit

end Context
end DeterminFlow.Library.Decimal
