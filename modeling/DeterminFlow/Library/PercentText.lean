/-
  Library.PercentText
  **PERCENT-ENCODED TEXT.**

  `urllib.parse.quote` and `unquote` over UTF-8: a text is written byte by
  byte, the bytes outside the safe set as `%XX`, and read back through a
  decoder that puts U+FFFD where the bytes are no UTF-8.
-/
import Mathlib.Data.List.Basic

namespace DeterminFlow.Library.PercentText

open List

/-! ## UTF-8 -/

def encodeChar (c : Char) : List Nat :=
  let n := c.toNat
  if n < 0x80 then [n]
  else if n < 0x800 then [0xc0 + n / 64, 0x80 + n % 64]
  else if n < 0x10000 then [0xe0 + n / 4096, 0x80 + n / 64 % 64, 0x80 + n % 64]
  else [0xf0 + n / 262144, 0x80 + n / 4096 % 64, 0x80 + n / 64 % 64, 0x80 + n % 64]

/-- A character begun: its bits so far, the bytes missing, and the range of
the next one. -/
structure Pending where
  value : Nat
  needed : Nat
  low : Nat
  high : Nat

def replacement : Char := Char.ofNat 0xfffd

def start (b : Nat) : List Char × Option Pending :=
  if b < 0x80 then ([Char.ofNat b], none)
  else if 0xc2 ≤ b ∧ b ≤ 0xdf then ([], some ⟨b - 0xc0, 1, 0x80, 0xbf⟩)
  else if 0xe0 ≤ b ∧ b ≤ 0xef then
    ([], some ⟨b - 0xe0, 2, if b = 0xe0 then 0xa0 else 0x80, if b = 0xed then 0x9f else 0xbf⟩)
  else if 0xf0 ≤ b ∧ b ≤ 0xf4 then
    ([], some ⟨b - 0xf0, 3, if b = 0xf0 then 0x90 else 0x80, if b = 0xf4 then 0x8f else 0xbf⟩)
  else ([replacement], none)

def feed : Option Pending → Nat → List Char × Option Pending
  | none, b => start b
  | some p, b =>
    if p.low ≤ b ∧ b ≤ p.high then
      if p.needed ≤ 1 then ([Char.ofNat (p.value * 64 + (b - 0x80))], none)
      else ([], some ⟨p.value * 64 + (b - 0x80), p.needed - 1, 0x80, 0xbf⟩)
    else (replacement :: (start b).1, (start b).2)

def flush : Option Pending → List Char
  | none => []
  | some _ => [replacement]

def feedAll : Option Pending → List Nat → List Char × Option Pending
  | s, [] => ([], s)
  | s, b :: rest => ((feed s b).1 ++ (feedAll (feed s b).2 rest).1, (feedAll (feed s b).2 rest).2)

lemma toNat_valid (c : Char) : c.toNat < 0xd800 ∨ (0xdfff < c.toNat ∧ c.toNat < 0x110000) := by
  have h := c.valid
  show c.val.toNat < 0xd800 ∨ (0xdfff < c.val.toNat ∧ c.val.toNat < 0x110000)
  simpa only [UInt32.isValidChar, Nat.isValidChar] using h

lemma encodeChar_lt (c : Char) : ∀ b ∈ encodeChar c, b < 256 := by
  intro b hb
  have hvalid := toNat_valid c
  unfold encodeChar at hb
  simp only at hb
  split at hb
  · simp only [mem_singleton] at hb
    omega
  split at hb
  · simp only [mem_cons, not_mem_nil, or_false] at hb
    omega
  split at hb <;> simp only [mem_cons, not_mem_nil, or_false] at hb <;> omega

lemma feed_last {value low high b : Nat} (hlow : low ≤ b) (hhigh : b ≤ high) :
    feed (some ⟨value, 1, low, high⟩) b = ([Char.ofNat (value * 64 + (b - 0x80))], none) := by
  show (if low ≤ b ∧ b ≤ high then _ else _) = _
  rw [if_pos ⟨hlow, hhigh⟩]
  rfl

lemma feed_more {value needed low high b : Nat} (hlow : low ≤ b) (hhigh : b ≤ high) :
    feed (some ⟨value, needed + 2, low, high⟩) b
      = ([], some ⟨value * 64 + (b - 0x80), needed + 1, 0x80, 0xbf⟩) := by
  show (if low ≤ b ∧ b ≤ high then _ else _) = _
  rw [if_pos ⟨hlow, hhigh⟩, if_neg (by show ¬ needed + 2 ≤ 1; omega)]
  rfl

lemma feedAll_encodeChar (c : Char) : feedAll none (encodeChar c) = ([c], none) := by
  have hvalid := toNat_valid c
  have hchar : Char.ofNat c.toNat = c := Char.ofNat_toNat c
  unfold encodeChar
  simp only
  -- one case for each length of the encoding
  by_cases h1 : c.toNat < 0x80
  · rw [if_pos h1]
    show ((start c.toNat).1 ++ [], (start c.toNat).2) = _
    rw [start, if_pos h1, hchar]
    rfl
  rw [if_neg h1]
  by_cases h2 : c.toNat < 0x800
  · rw [if_pos h2]
    have hstart : feed none (0xc0 + c.toNat / 64) = ([], some ⟨c.toNat / 64, 1, 0x80, 0xbf⟩) := by
      show start _ = _
      rw [start, if_neg (by omega), if_pos (by omega), Nat.add_sub_cancel_left]
    have hvalue : c.toNat / 64 * 64 + (0x80 + c.toNat % 64 - 0x80) = c.toNat := by omega
    simp only [feedAll, hstart, feed_last (show 0x80 ≤ 0x80 + c.toNat % 64 by omega)
      (show 0x80 + c.toNat % 64 ≤ 0xbf by omega), hvalue, hchar]
    rfl
  rw [if_neg h2]
  by_cases h3 : c.toNat < 0x10000
  · rw [if_pos h3]
    have hstart : feed none (0xe0 + c.toNat / 4096)
        = ([], some ⟨c.toNat / 4096, 2, if 0xe0 + c.toNat / 4096 = 0xe0 then 0xa0 else 0x80,
            if 0xe0 + c.toNat / 4096 = 0xed then 0x9f else 0xbf⟩) := by
      show start _ = _
      rw [start, if_neg (by omega), if_neg (by omega), if_pos (by omega), Nat.add_sub_cancel_left]
    have hsecond : c.toNat / 4096 * 64 + (0x80 + c.toNat / 64 % 64 - 0x80) = c.toNat / 64 := by omega
    have hvalue : c.toNat / 64 * 64 + (0x80 + c.toNat % 64 - 0x80) = c.toNat := by omega
    have hlow : (if 0xe0 + c.toNat / 4096 = 0xe0 then 0xa0 else 0x80) ≤ 0x80 + c.toNat / 64 % 64 := by
      split <;> omega
    have hhigh : 0x80 + c.toNat / 64 % 64 ≤ (if 0xe0 + c.toNat / 4096 = 0xed then 0x9f else 0xbf) := by
      split <;> omega
    simp only [feedAll, hstart, @feed_more _ 0 _ _ _ hlow hhigh, hsecond,
      feed_last (show 0x80 ≤ 0x80 + c.toNat % 64 by omega)
        (show 0x80 + c.toNat % 64 ≤ 0xbf by omega), hvalue, hchar]
    rfl
  rw [if_neg h3]
  have hstart : feed none (0xf0 + c.toNat / 262144)
      = ([], some ⟨c.toNat / 262144, 3, if 0xf0 + c.toNat / 262144 = 0xf0 then 0x90 else 0x80,
          if 0xf0 + c.toNat / 262144 = 0xf4 then 0x8f else 0xbf⟩) := by
    show start _ = _
    rw [start, if_neg (by omega), if_neg (by omega), if_neg (by omega), if_pos (by omega),
      Nat.add_sub_cancel_left]
  have hsecond : c.toNat / 262144 * 64 + (0x80 + c.toNat / 4096 % 64 - 0x80) = c.toNat / 4096 := by omega
  have hthird : c.toNat / 4096 * 64 + (0x80 + c.toNat / 64 % 64 - 0x80) = c.toNat / 64 := by omega
  have hvalue : c.toNat / 64 * 64 + (0x80 + c.toNat % 64 - 0x80) = c.toNat := by omega
  have hlow : (if 0xf0 + c.toNat / 262144 = 0xf0 then 0x90 else 0x80) ≤ 0x80 + c.toNat / 4096 % 64 := by
    split <;> omega
  have hhigh : 0x80 + c.toNat / 4096 % 64 ≤ (if 0xf0 + c.toNat / 262144 = 0xf4 then 0x8f else 0xbf) := by
    split <;> omega
  simp only [feedAll, hstart, @feed_more _ 1 _ _ _ hlow hhigh, hsecond,
    @feed_more _ 0 _ _ _ (show 0x80 ≤ 0x80 + c.toNat / 64 % 64 by omega)
      (show 0x80 + c.toNat / 64 % 64 ≤ 0xbf by omega), hthird,
    feed_last (show 0x80 ≤ 0x80 + c.toNat % 64 by omega)
      (show 0x80 + c.toNat % 64 ≤ 0xbf by omega), hvalue, hchar]
  rfl

/-! ## Quoting -/

/-- The bytes `quote` leaves alone: letters, digits, `_.-~` and `/`. -/
def isSafeByte (b : Nat) : Bool :=
  (0x30 ≤ b && b ≤ 0x39) || (0x41 ≤ b && b ≤ 0x5a) || (0x61 ≤ b && b ≤ 0x7a)
    || b == 0x5f || b == 0x2e || b == 0x2d || b == 0x7e || b == 0x2f

def hexDigit (n : Nat) : Char :=
  if n < 10 then Char.ofNat (0x30 + n) else Char.ofNat (0x37 + n)

def hexValue? (c : Char) : Option Nat :=
  let n := c.toNat
  if 0x30 ≤ n ∧ n ≤ 0x39 then some (n - 0x30)
  else if 0x41 ≤ n ∧ n ≤ 0x46 then some (n - 0x37)
  else if 0x61 ≤ n ∧ n ≤ 0x66 then some (n - 0x57)
  else none

def quoteByte (b : Nat) : List Char :=
  if isSafeByte b then [Char.ofNat b] else ['%', hexDigit (b / 16), hexDigit (b % 16)]

/-- `quote`: the safe bytes themselves, the others as `%XX`. -/
def quote (text : List Char) : List Char :=
  text.flatMap (fun c => (encodeChar c).flatMap quoteByte)

/-- `unquote` with the decoder in a given state: the runs of ASCII are decoded
as bytes, any other character ends a run. -/
def unquoteFrom : Option Pending → List Char → List Char
  | s, [] => flush s
  | s, '%' :: high :: low :: rest =>
    match hexValue? high, hexValue? low with
    | some x, some y => (feed s (x * 16 + y)).1 ++ unquoteFrom (feed s (x * 16 + y)).2 rest
    | _, _ => (feed s 0x25).1 ++ unquoteFrom (feed s 0x25).2 (high :: low :: rest)
  | s, c :: rest =>
    if c.toNat < 0x80 then (feed s c.toNat).1 ++ unquoteFrom (feed s c.toNat).2 rest
    else flush s ++ c :: unquoteFrom none rest

def unquote (text : List Char) : List Char := unquoteFrom none text

lemma hexValue?_hexDigit {n : Nat} (h : n < 16) : hexValue? (hexDigit n) = some n :=
  (show ∀ n < 16, hexValue? (hexDigit n) = some n by decide) n h

lemma toNat_ofNat_ascii {b : Nat} (h : b < 128) : (Char.ofNat b).toNat = b :=
  (show ∀ b < 128, (Char.ofNat b).toNat = b by decide) b h

lemma safe_lt {b : Nat} (h : isSafeByte b = true) : b < 128 ∧ b ≠ 0x25 := by
  simp only [isSafeByte, Bool.or_eq_true, Bool.and_eq_true, decide_eq_true_eq, beq_iff_eq] at h
  omega

lemma unquoteFrom_quoteByte (s : Option Pending) {b : Nat} (h : b < 256) (rest : List Char) :
    unquoteFrom s (quoteByte b ++ rest) = (feed s b).1 ++ unquoteFrom (feed s b).2 rest := by
  unfold quoteByte
  split
  case isTrue hsafe =>
    have hb := safe_lt hsafe
    have hn := toNat_ofNat_ascii hb.1
    have hpercent : Char.ofNat b ≠ '%' := by
      intro heq
      rw [heq] at hn
      exact hb.2 hn.symm
    show unquoteFrom s (Char.ofNat b :: rest) = _
    rw [unquoteFrom, hn, if_pos hb.1]
    intro _ _ _ hc
    exact absurd hc hpercent
  case isFalse =>
    have hvalue : b / 16 * 16 + b % 16 = b := by omega
    show unquoteFrom s ('%' :: hexDigit (b / 16) :: hexDigit (b % 16) :: rest) = _
    rw [unquoteFrom, hexValue?_hexDigit (by omega), hexValue?_hexDigit (by omega)]
    simp only [hvalue]

lemma unquoteFrom_quoteBytes (bytes : List Nat) (h : ∀ b ∈ bytes, b < 256) (rest : List Char) :
    ∀ s, unquoteFrom s (bytes.flatMap quoteByte ++ rest)
      = (feedAll s bytes).1 ++ unquoteFrom (feedAll s bytes).2 rest := by
  induction bytes with
  | nil => intro s; rfl
  | cons b bytes ih =>
    intro s
    rw [flatMap_cons, append_assoc, unquoteFrom_quoteByte s (h b mem_cons_self),
      ih (fun b hb => h b (mem_cons_of_mem _ hb))]
    show _ = ((feed s b).1 ++ (feedAll (feed s b).2 bytes).1) ++ _
    rw [append_assoc]
    rfl

lemma unquote_quote (text : List Char) : unquote (quote text) = text := by
  show unquoteFrom none (quote text) = text
  induction text with
  | nil => rfl
  | cons c text ih =>
    show unquoteFrom none ((encodeChar c).flatMap quoteByte ++ quote text) = c :: text
    rw [unquoteFrom_quoteBytes _ (encodeChar_lt c), feedAll_encodeChar, ih]
    rfl

lemma quote_injective {a b : List Char} (h : quote a = quote b) : a = b := by
  rw [← unquote_quote a, h, unquote_quote]

/-! ## The characters of a quoted text -/

def isQuoted (c : Char) : Bool := isSafeByte c.toNat || c == '%'

lemma hexDigit_quoted {n : Nat} (h : n < 16) : isQuoted (hexDigit n) = true :=
  (show ∀ n < 16, isQuoted (hexDigit n) = true by decide) n h

lemma quoteByte_quoted {b : Nat} (h : b < 256) : ∀ c ∈ quoteByte b, isQuoted c = true := by
  intro c hc
  unfold quoteByte at hc
  split at hc
  case isTrue hsafe =>
    rw [List.mem_singleton.1 hc]
    unfold isQuoted
    rw [toNat_ofNat_ascii (safe_lt hsafe).1, hsafe]
    rfl
  case isFalse =>
    simp only [mem_cons, not_mem_nil, or_false] at hc
    rcases hc with rfl | rfl | rfl
    · rfl
    all_goals exact hexDigit_quoted (by omega)

lemma quote_plain (text : List Char) : ∀ c ∈ quote text, isQuoted c = true := by
  intro c hc
  obtain ⟨d, -, hd⟩ := List.mem_flatMap.1 hc
  obtain ⟨b, hb, hcb⟩ := List.mem_flatMap.1 hd
  exact quoteByte_quoted (encodeChar_lt d b hb) c hcb

lemma quote_slash (text : List Char) : quote ('/' :: text) = '/' :: quote text := rfl

end DeterminFlow.Library.PercentText
