/-
  Library.JsonText
  **TEXTS OF JSON VALUES.**

  The grammar of JSON texts over character lists: blanks, string literals with
  their escapes, numbers, arrays and objects.  One inductive family, indexed
  by what stands in a text, so a fact about every text is one induction.

  What a scanner sees of a text outside its strings is quotation marks and
  brackets; `Quiet` text has neither.
-/
import Mathlib.Data.List.Basic

namespace DeterminFlow.Library.JsonText

open List

abbrev Text : Type := List Char

/-! ## Characters -/

def isBlank (c : Char) : Bool := c == ' ' || c == '\t' || c == '\n' || c == '\r'

def isPlain (c : Char) : Bool := c != '"' && c != '\\' && decide (0x20 ≤ c.toNat)

def isHex (c : Char) : Bool :=
  c.isDigit || (decide ('a' ≤ c) && decide (c ≤ 'f')) || (decide ('A' ≤ c) && decide (c ≤ 'F'))

/-- The letters behind a backslash, `u` apart. -/
def escapeLetters : Text := ['"', '\\', '/', 'b', 'f', 'n', 'r', 't']

def isBracket (c : Char) : Bool := c == '{' || c == '}' || c == '[' || c == ']'

/-- What holds of every character of a text is decided one by one. -/
instance (priority := 2000) decidableForallMem (p : Char → Prop) [DecidablePred p] (text : Text) :
    Decidable (∀ c ∈ text, p c) := List.decidableBAll p text

def Blank (text : Text) : Prop := ∀ c ∈ text, isBlank c = true

/-! ## The grammar -/

/-- What stands between the quotation marks of a string. -/
inductive Body : Text → Prop where
  | nil : Body []
  | plain {c : Char} {rest : Text} : isPlain c = true → Body rest → Body (c :: rest)
  | escape {c : Char} {rest : Text} : c ∈ escapeLetters → Body rest → Body ('\\' :: c :: rest)
  | unicode {a b c d : Char} {rest : Text} :
      isHex a = true → isHex b = true → isHex c = true → isHex d = true →
      Body rest → Body ('\\' :: 'u' :: a :: b :: c :: d :: rest)

/-- At least one digit, and nothing else. -/
structure Digits (text : Text) : Prop where
  ne_nil : text ≠ []
  digit : ∀ c ∈ text, c.isDigit = true

/-- Digits without a leading zero. -/
inductive Whole : Text → Prop where
  | zero : Whole ['0']
  | digits {c : Char} {rest : Text} : c.isDigit = true → c ≠ '0' →
      (∀ d ∈ rest, d.isDigit = true) → Whole (c :: rest)

inductive Fraction : Text → Prop where
  | none : Fraction []
  | digits {text : Text} : Digits text → Fraction ('.' :: text)

inductive Exponent : Text → Prop where
  | none : Exponent []
  | digits {e : Char} {sign text : Text} : (e = 'e' ∨ e = 'E') →
      (sign = [] ∨ sign = ['+'] ∨ sign = ['-']) → Digits text → Exponent (e :: (sign ++ text))

inductive Number : Text → Prop where
  | parts {sign whole fraction exponent : Text} : (sign = [] ∨ sign = ['-']) → Whole whole →
      Fraction fraction → Exponent exponent → Number (sign ++ (whole ++ (fraction ++ exponent)))

/-- The texts that stand for themselves. -/
inductive Constant : Text → Prop where
  | null : Constant "null".toList
  | true : Constant "true".toList
  | false : Constant "false".toList

def quoted (body : Text) : Text := '"' :: (body ++ ['"'])

/-- What a text is: a value, the inside of an array, or the inside of an object. -/
inductive Kind where
  | value
  | elements
  | members

/-- **The texts of JSON values.** -/
inductive Json : Kind → Text → Prop where
  | constant {text : Text} : Constant text → Json .value text
  | number {text : Text} : Number text → Json .value text
  | string {body : Text} : Body body → Json .value (quoted body)
  | emptyArray {blank : Text} : Blank blank → Json .value ('[' :: (blank ++ [']']))
  | array {text : Text} : Json .elements text → Json .value ('[' :: (text ++ [']']))
  | emptyObject {blank : Text} : Blank blank → Json .value ('{' :: (blank ++ ['}']))
  | object {text : Text} : Json .members text → Json .value ('{' :: (text ++ ['}']))
  | element {before value after : Text} : Blank before → Json .value value → Blank after →
      Json .elements (before ++ (value ++ after))
  | elements {before value after rest : Text} : Blank before → Json .value value →
      Blank after → Json .elements rest →
      Json .elements (before ++ (value ++ (after ++ (',' :: rest))))
  | member {before key colon space value after : Text} : Blank before → Body key →
      Blank colon → Blank space → Json .value value → Blank after →
      Json .members (before ++ (quoted key ++ (colon ++ (':' :: (space ++ (value ++ after))))))
  | members {before key colon space value after rest : Text} : Blank before → Body key →
      Blank colon → Blank space → Json .value value → Blank after → Json .members rest →
      Json .members
        (before ++ (quoted key ++ (colon ++ (':' :: (space ++ (value ++ (after ++ (',' :: rest))))))))

/-- **The texts of arrays and objects.** -/
inductive Container : Text → Prop where
  | emptyArray {blank : Text} : Blank blank → Container ('[' :: (blank ++ [']']))
  | array {text : Text} : Json .elements text → Container ('[' :: (text ++ [']']))
  | emptyObject {blank : Text} : Blank blank → Container ('{' :: (blank ++ ['}']))
  | object {text : Text} : Json .members text → Container ('{' :: (text ++ ['}']))

/-! ## Quiet text -/

def isQuiet (c : Char) : Bool := c != '"' && !isBracket c

def Quiet (text : Text) : Prop := ∀ c ∈ text, isQuiet c = true

lemma Quiet.append {text other : Text} (h : Quiet text) (h' : Quiet other) :
    Quiet (text ++ other) := fun c hc =>
  (mem_append.1 hc).elim (h c) (h' c)

lemma isQuiet_of_isBlank {c : Char} (h : isBlank c = true) : isQuiet c = true := by
  unfold isBlank at h
  simp only [Bool.or_eq_true, beq_iff_eq] at h
  rcases h with ((rfl | rfl) | rfl) | rfl <;> rfl

lemma Blank.quiet {text : Text} (h : Blank text) : Quiet text := fun c hc =>
  isQuiet_of_isBlank (h c hc)

lemma isQuiet_of_isDigit {c : Char} (h : c.isDigit = true) : isQuiet c = true := by
  have hne : ∀ d : Char, d.isDigit = false → c ≠ d := by
    rintro d hd rfl
    rw [h] at hd
    cases hd
  unfold isQuiet isBracket
  simp [hne '"' rfl, hne '{' rfl, hne '}' rfl, hne '[' rfl, hne ']' rfl]

lemma Digits.quiet {text : Text} (h : Digits text) : Quiet text := fun c hc =>
  isQuiet_of_isDigit (h.digit c hc)

lemma Whole.quiet {text : Text} (h : Whole text) : Quiet text := by
  cases h with
  | zero => exact fun _ hc => by rw [mem_singleton.1 hc]; rfl
  | digits hc hne hrest =>
    intro d hd
    rcases mem_cons.1 hd with rfl | hd
    · exact isQuiet_of_isDigit hc
    exact isQuiet_of_isDigit (hrest d hd)

lemma Quiet.cons {c : Char} {text : Text} (hc : isQuiet c = true) (h : Quiet text) :
    Quiet (c :: text) := fun d hd => (mem_cons.1 hd).elim (fun hdc => hdc ▸ hc) (h d)

lemma Quiet.nil : Quiet [] := nofun

lemma Fraction.quiet {text : Text} (h : Fraction text) : Quiet text := by
  cases h with
  | none => exact Quiet.nil
  | digits hdigits => exact hdigits.quiet.cons rfl

lemma Exponent.quiet {text : Text} (h : Exponent text) : Quiet text := by
  cases h with
  | none => exact Quiet.nil
  | digits he hsign hdigits =>
    have hletter : ∀ {e : Char}, e = 'e' ∨ e = 'E' → isQuiet e = true := by
      rintro e (rfl | rfl) <;> rfl
    refine Quiet.cons (hletter he) (Quiet.append ?_ hdigits.quiet)
    rcases hsign with rfl | rfl | rfl
    · exact Quiet.nil
    all_goals exact Quiet.nil.cons rfl

lemma Number.quiet {text : Text} (h : Number text) : Quiet text := by
  cases h with
  | parts hsign hwhole hfraction hexponent =>
    refine Quiet.append ?_ (hwhole.quiet.append (hfraction.quiet.append hexponent.quiet))
    rcases hsign with rfl | rfl
    · exact Quiet.nil
    exact Quiet.nil.cons rfl

lemma Constant.quiet {text : Text} (h : Constant text) : Quiet text := by
  cases h
  all_goals exact all_eq_true.1 rfl

end DeterminFlow.Library.JsonText
