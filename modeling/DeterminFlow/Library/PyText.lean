/-
  Library.PyText
  **PYTHON'S TEXT PREDICATES.**

  `str.strip`, `int(str)` and the decimal-digit class `\d`, as CPython
  defines them over Unicode code points.  Everything works on character
  lists, so the definitions evaluate in the kernel.
-/
import Mathlib.Data.List.DropRight

namespace DeterminFlow.Library.PyText

open List

/-- The characters `str.strip()` removes. -/
def isSpace (c : Char) : Bool :=
  let n := c.toNat
  (9 ≤ n && n ≤ 13) || (0x1c ≤ n && n ≤ 0x20) || n == 0x85 || n == 0xa0 || n == 0x1680
    || (0x2000 ≤ n && n ≤ 0x200a) || n == 0x2028 || n == 0x2029 || n == 0x202f
    || n == 0x205f || n == 0x3000

/-- First code points of the blocks of ten decimal digits (category Nd); the
mathematical digits at `0x1d7ce` are five such blocks in a row. -/
def digitBlocks : List Nat :=
  [0x30, 0x660, 0x6f0, 0x7c0, 0x966, 0x9e6, 0xa66, 0xae6, 0xb66, 0xbe6, 0xc66, 0xce6,
   0xd66, 0xde6, 0xe50, 0xed0, 0xf20, 0x1040, 0x1090, 0x17e0, 0x1810, 0x1946, 0x19d0,
   0x1a80, 0x1a90, 0x1b50, 0x1bb0, 0x1c40, 0x1c50, 0xa620, 0xa8d0, 0xa900, 0xa9d0,
   0xa9f0, 0xaa50, 0xabf0, 0xff10, 0x104a0, 0x10d30, 0x11066, 0x110f0, 0x11136,
   0x111d0, 0x112f0, 0x11450, 0x114d0, 0x11650, 0x116c0, 0x11730, 0x118e0, 0x11950,
   0x11c50, 0x11d50, 0x11da0, 0x16a60, 0x16ac0, 0x16b50, 0x1d7ce, 0x1d7d8, 0x1d7e2,
   0x1d7ec, 0x1d7f6, 0x1e140, 0x1e2f0, 0x1e950, 0x1fbf0]

def digitValue? (c : Char) : Option Nat :=
  (digitBlocks.find? (fun b => b ≤ c.toNat && c.toNat < b + 10)).map (c.toNat - ·)

/-- `\d` on a text pattern. -/
def isDecimal (c : Char) : Bool := (digitValue? c).isSome

/-- The digits that are no decimal digits: superscripts, circled digits and
the like, as intervals of code points. -/
def otherDigits : List (Nat × Nat) :=
  [(0xb2, 0xb3), (0xb9, 0xb9), (0x1369, 0x1371), (0x19da, 0x19da), (0x2070, 0x2070),
   (0x2074, 0x2079), (0x2080, 0x2089), (0x2460, 0x2468), (0x2474, 0x247c), (0x2488, 0x2490),
   (0x24ea, 0x24ea), (0x24f5, 0x24fd), (0x24ff, 0x24ff), (0x2776, 0x277e), (0x2780, 0x2788),
   (0x278a, 0x2792), (0x10a40, 0x10a43), (0x10e60, 0x10e68), (0x11052, 0x1105a), (0x1f100, 0x1f10a)]

/-- `str.isdigit` of one character. -/
def isDigit (c : Char) : Bool :=
  isDecimal c || otherDigits.any (fun block => block.1 ≤ c.toNat && c.toNat ≤ block.2)

/-- `strip()` on a character list. -/
def strip (chars : List Char) : List Char :=
  ((chars.dropWhile isSpace).reverse.dropWhile isSpace).reverse

/-- `text.strip()`, as a character list. -/
def stripChars (text : String) : List Char :=
  ((text.toList.dropWhile isSpace).reverse.dropWhile isSpace).reverse

/-- `bool(text.strip())`. -/
def hasText (text : String) : Bool := !(stripChars text).isEmpty

def digitsValue? : Nat → List Char → Option Nat
  | acc, [] => some acc
  | acc, '_' :: c :: rest => do
      let d ← digitValue? c
      digitsValue? (acc * 10 + d) rest
  | acc, c :: rest => do
      let d ← digitValue? c
      digitsValue? (acc * 10 + d) rest

def natValue? : List Char → Option Nat
  | [] => none
  | c :: rest => do
      let d ← digitValue? c
      digitsValue? d rest

/-- `int(text)`; `none` stands for `ValueError`. -/
def intOf? (text : String) : Option Int :=
  match stripChars text with
  | '-' :: rest => (natValue? rest).map (fun n => -(n : Int))
  | '+' :: rest => (natValue? rest).map (fun n => (n : Int))
  | rest => (natValue? rest).map (fun n => (n : Int))

/-- The parts of `chars` between the separators `sep`. -/
def splitAt (sep : Char) : List Char → List (List Char)
  | [] => [[]]
  | c :: rest =>
    if c = sep then [] :: splitAt sep rest
    else
      match splitAt sep rest with
      | [] => [[c]]
      | part :: parts => (c :: part) :: parts

/-! ## Stripping and splitting -/

variable {chars : List Char} {sep c : Char} {parts : List (List Char)}

lemma dropWhile_isSpace (h : ∀ c ∈ chars.head?, isSpace c = false) :
    chars.dropWhile isSpace = chars := by
  cases chars with
  | nil => rfl
  | cons c =>
    rw [dropWhile_cons_of_neg]
    rw [h c rfl]
    exact Bool.false_ne_true

lemma strip_append {spaces : List Char} (hhead : ∀ c ∈ chars.head?, isSpace c = false)
    (hlast : ∀ c ∈ chars.getLast?, isSpace c = false) (hne : chars ≠ [])
    (hspaces : ∀ c ∈ spaces, isSpace c = true) : strip (chars ++ spaces) = chars := by
  have hfront : ∀ c ∈ (chars ++ spaces).head?, isSpace c = false := by
    cases chars with
    | nil => exact absurd rfl hne
    | cons => exact hhead
  have hback : (spaces.reverse ++ chars.reverse).dropWhile isSpace = chars.reverse := by
    rw [dropWhile_append_of_pos (fun c hc => hspaces c (mem_reverse.1 hc))]
    apply dropWhile_isSpace
    rw [head?_reverse]
    exact hlast
  rw [strip, dropWhile_isSpace hfront, reverse_append, hback, reverse_reverse]

lemma strip_eq_self (hhead : ∀ c ∈ chars.head?, isSpace c = false)
    (hlast : ∀ c ∈ chars.getLast?, isSpace c = false) : strip chars = chars := by
  rw [strip, dropWhile_isSpace hhead, dropWhile_isSpace, reverse_reverse]
  rw [head?_reverse]
  exact hlast

lemma strip_strip (chars : List Char) : strip (strip chars) = strip chars := by
  have hstrip : ∀ l : List Char, strip l = (l.dropWhile isSpace).rdropWhile isSpace := fun _ => rfl
  have hfront : (strip chars).dropWhile isSpace = strip chars := by
    cases h : strip chars with
    | nil => rfl
    | cons c rest =>
      -- the first character is the first one of what was left of the front
      have hpre : c :: rest <+: chars.dropWhile isSpace := h ▸ rdropWhile_prefix isSpace _
      obtain ⟨_, htail⟩ := hpre
      have hhead := head?_dropWhile_not isSpace chars
      rw [← htail] at hhead
      exact dropWhile_cons_of_neg (by simpa using hhead)
  rw [hstrip (strip chars), hfront, hstrip chars, rdropWhile_idempotent]

lemma splitAt_ne_nil (sep : Char) (chars : List Char) : splitAt sep chars ≠ [] := by
  cases chars with
  | nil => exact cons_ne_nil _ _
  | cons =>
    rw [splitAt]
    split
    · exact cons_ne_nil _ _
    split
    all_goals exact cons_ne_nil _ _

lemma mem_splitAt {part : List Char} (h : part ∈ splitAt sep chars) :
    sep ∉ part ∧ ∀ c ∈ part, c ∈ chars := by
  induction chars generalizing part with
  | nil =>
    rw [mem_singleton.1 h]
    exact ⟨not_mem_nil, fun c hc => hc⟩
  | cons c rest ih =>
    rw [splitAt] at h
    split at h
    · rcases mem_cons.1 h with rfl | hrest
      · exact ⟨not_mem_nil, nofun⟩
      exact ⟨(ih hrest).1, fun d hd => mem_cons_of_mem c ((ih hrest).2 d hd)⟩
    next hne =>
    split at h
    · next hnil => exact absurd hnil (splitAt_ne_nil sep rest)
    next first parts hparts =>
    rw [hparts] at ih
    rcases mem_cons.1 h with rfl | hrest
    · have hfirst := ih mem_cons_self
      constructor
      · intro hmem
        rcases mem_cons.1 hmem with heq | hmem
        · exact hne heq.symm
        exact hfirst.1 hmem
      intro d hd
      rcases mem_cons.1 hd with rfl | hd
      · exact mem_cons_self
      exact mem_cons_of_mem c (hfirst.2 d hd)
    have hpart := ih (mem_cons_of_mem first hrest)
    exact ⟨hpart.1, fun d hd => mem_cons_of_mem c (hpart.2 d hd)⟩

lemma splitAt_eq_splitOn (sep : Char) (chars : List Char) :
    splitAt sep chars = chars.splitOn sep := by
  induction chars with
  | nil => rfl
  | cons c rest ih =>
    rw [splitAt, splitOn_cons_eq_if_modifyHead, ← ih]
    by_cases hsep : c = sep
    · rw [if_pos hsep, if_pos (beq_iff_eq.2 hsep)]
    rw [if_neg hsep, if_neg (fun h => hsep (beq_iff_eq.1 h))]
    cases hparts : splitAt sep rest with
    | nil => exact absurd hparts (splitAt_ne_nil sep rest)
    | cons => rfl

lemma splitAt_intercalate (hne : parts ≠ []) (h : ∀ part ∈ parts, sep ∉ part) :
    splitAt sep ([sep].intercalate parts) = parts := by
  rw [splitAt_eq_splitOn, splitOn_intercalate sep h hne]

lemma mem_intercalate (h : c ∈ [sep].intercalate parts) : c = sep ∨ ∃ part ∈ parts, c ∈ part := by
  induction parts with
  | nil => cases h
  | cons part parts ih =>
    cases parts with
    | nil =>
      rw [intercalate_singleton] at h
      exact .inr ⟨part, mem_cons_self, h⟩
    | cons =>
      rw [intercalate_cons_cons, mem_append, mem_append, mem_singleton] at h
      rcases h with (hpart | hsep) | hrest
      · exact .inr ⟨part, mem_cons_self, hpart⟩
      · exact .inl hsep
      rcases ih hrest with hsep | ⟨p, hp, hc⟩
      · exact .inl hsep
      exact .inr ⟨p, mem_cons_of_mem part hp, hc⟩

/-! ## Decimal digits -/

lemma bounds_of_isDigit (h : c.isDigit) : 48 ≤ c.toNat ∧ c.toNat ≤ 57 := by
  simp only [Char.isDigit, Bool.and_eq_true, decide_eq_true_eq, ge_iff_le] at h
  exact h

lemma digitValue?_of_isDigit (h : c.isDigit) : digitValue? c = some (c.toNat - 48) := by
  have hbounds := bounds_of_isDigit h
  have hfind : digitBlocks.find? (fun b => b ≤ c.toNat && c.toNat < b + 10) = some 0x30 := by
    rw [digitBlocks, find?_cons_of_pos]
    simp only [Bool.and_eq_true, decide_eq_true_eq]
    omega
  rw [digitValue?, hfind]
  rfl

lemma isSpace_of_isDigit (h : c.isDigit) : isSpace c = false := by
  have hbounds := bounds_of_isDigit h
  simp only [isSpace, Bool.or_eq_false_iff, Bool.and_eq_false_iff, decide_eq_false_iff_not,
    beq_eq_false_iff_ne]
  omega

lemma digitsValue?_of_isDigit (h : ∀ c ∈ chars, c.isDigit) (acc : Nat) :
    digitsValue? acc chars = some (Nat.ofDigitChars 10 chars acc) := by
  induction chars generalizing acc with
  | nil => rfl
  | cons c rest ih =>
    have hc : c.isDigit := h c mem_cons_self
    have hne : c ≠ '_' := by
      rintro rfl
      cases hc
    rw [digitsValue?.eq_3 _ _ _ (fun _ _ hab => absurd hab hne), digitValue?_of_isDigit hc]
    show digitsValue? (acc * 10 + (c.toNat - 48)) rest = _
    rw [ih (fun d hd => h d (mem_cons_of_mem _ hd)), Nat.ofDigitChars_cons, Nat.mul_comm]
    rfl

lemma natValue?_of_isDigit (h : ∀ c ∈ chars, c.isDigit) (hne : chars ≠ []) :
    natValue? chars = some (Nat.ofDigitChars 10 chars 0) := by
  cases chars with
  | nil => exact absurd rfl hne
  | cons c rest =>
    have hc : c.isDigit := h c mem_cons_self
    rw [natValue?, digitValue?_of_isDigit hc]
    show digitsValue? (c.toNat - 48) rest = _
    rw [digitsValue?_of_isDigit (fun d hd => h d (mem_cons_of_mem _ hd)),
      Nat.ofDigitChars_cons, Nat.mul_zero, Nat.zero_add]
    rfl

lemma dropWhile_isSpace_of_isDigit (h : ∀ c ∈ chars, c.isDigit) :
    chars.dropWhile isSpace = chars := by
  cases chars with
  | nil => rfl
  | cons c =>
    rw [dropWhile_cons_of_neg]
    rw [isSpace_of_isDigit (h c mem_cons_self)]
    exact Bool.false_ne_true

lemma intOf?_repr (n : Nat) : intOf? n.repr = some (n : Int) := by
  have hdigits : ∀ c ∈ Nat.toDigits 10 n, c.isDigit := fun c hc =>
    Nat.isDigit_of_mem_toDigits (by decide) (by decide) hc
  have hstrip : stripChars n.repr = Nat.toDigits 10 n := by
    rw [stripChars, Nat.toList_repr, dropWhile_isSpace_of_isDigit hdigits,
      dropWhile_isSpace_of_isDigit (fun c hc => hdigits c (mem_reverse.1 hc)),
      reverse_reverse]
  have hvalue : natValue? (Nat.toDigits 10 n) = some n := by
    rw [natValue?_of_isDigit hdigits Nat.toDigits_ne_nil, Nat.ofDigitChars_ten_toDigits]
  have hminus : ∀ rest, Nat.toDigits 10 n ≠ '-' :: rest := fun rest heq =>
    absurd (hdigits '-' (heq ▸ mem_cons_self)) (by decide)
  have hplus : ∀ rest, Nat.toDigits 10 n ≠ '+' :: rest := fun rest heq =>
    absurd (hdigits '+' (heq ▸ mem_cons_self)) (by decide)
  rw [intOf?, hstrip]
  split
  · exact absurd ‹_› (hminus _)
  · exact absurd ‹_› (hplus _)
  rw [hvalue]
  rfl

end DeterminFlow.Library.PyText
