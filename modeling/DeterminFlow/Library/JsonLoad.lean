/-
  Library.JsonLoad
  **READING JSON.**

  `json.loads`: blanks, one value, blanks.  A string is read with its escapes,
  a pair of surrogates as one character; a lone surrogate, which no character
  is, is read as the replacement character.  The recursion is on a number of
  steps that is larger than the text needs.
-/
import DeterminFlow.Library.JsonDump
import DeterminFlow.Library.PyText

namespace DeterminFlow.Library.JsonCodec

open JsonText List Option PyText

/-! ## Tokens -/

def skipBlank (text : Text) : Text := text.dropWhile isBlank

/-- The text behind `c`. -/
def behind? (c : Char) : Text → Option Text
  | [] => none
  | d :: rest => if d = c then some rest else none

/-- The text behind `name`. -/
def literal? (name text : Text) : Option Text :=
  if name.isPrefixOf text then some (text.drop name.length) else none

def hexValue? (c : Char) : Option Nat :=
  if c.isDigit then some (c.toNat - 48)
  else if 'a' ≤ c && c ≤ 'f' then some (c.toNat - 87)
  else if 'A' ≤ c && c ≤ 'F' then some (c.toNat - 55)
  else none

def readHex? : Text → Option (Nat × Text)
  | a :: b :: c :: d :: rest => do
      let a ← hexValue? a
      let b ← hexValue? b
      let c ← hexValue? c
      let d ← hexValue? d
      return (((a * 16 + b) * 16 + c) * 16 + d, rest)
  | _ => none

def charOf (n : Nat) : Char :=
  if n.isValidChar then Char.ofNat n else '\ufffd'

def lowSurrogate? (text : Text) : Option (Nat × Text) := do
  let rest ← literal? ['\\', 'u'] text
  let (n, rest) ← readHex? rest
  if 0xdc00 ≤ n && n < 0xe000 then some (n, rest) else none

/-- The letters behind a backslash, `u` apart. -/
def unescape? (c : Char) : Option Char :=
  if c = '"' then some '"'
  else if c = '\\' then some '\\'
  else if c = '/' then some '/'
  else if c = 'b' then some '\x08'
  else if c = 'f' then some '\x0c'
  else if c = 'n' then some '\n'
  else if c = 'r' then some '\r'
  else if c = 't' then some '\t'
  else none

/-- The character of `\u` with its four digits, or of two of these. -/
def readUnicode? (text : Text) : Option (Char × Text) :=
  match readHex? text with
  | none => none
  | some (n, rest) =>
    if 0xd800 ≤ n && n < 0xdc00 then
      match lowSurrogate? rest with
      | some (low, rest) => some (charOf (0x10000 + (n - 0xd800) * 0x400 + (low - 0xdc00)), rest)
      | none => some (charOf n, rest)
    else some (charOf n, rest)

def readEscape? : Text → Option (Char × Text)
  | [] => none
  | c :: rest => if c = 'u' then readUnicode? rest else (unescape? c).map (fun d => (d, rest))

def readString : Nat → Text → Option (Text × Text)
  | 0, _ => none
  | _ + 1, [] => none
  | steps + 1, c :: rest =>
    if c = '"' then some ([], rest)
    else if c = '\\' then
      match readEscape? rest with
      | none => none
      | some (d, rest) => (readString steps rest).map (fun r => (d :: r.1, r.2))
    else if c.toNat < 0x20 then none
    else (readString steps rest).map (fun r => (c :: r.1, r.2))

def readFraction : Text → Text × Text
  | [] => ([], [])
  | c :: rest =>
    let digits := rest.takeWhile Char.isDigit
    if c = '.' && !digits.isEmpty then (c :: digits, rest.dropWhile Char.isDigit)
    else ([], c :: rest)

def readSign (signs text : Text) : Text × Text :=
  match text with
  | [] => ([], [])
  | c :: rest => if c ∈ signs then ([c], rest) else ([], c :: rest)

def readExponent : Text → Text × Text
  | [] => ([], [])
  | c :: rest =>
    let sign := readSign ['+', '-'] rest
    let digits := sign.2.takeWhile Char.isDigit
    if (c = 'e' || c = 'E') && !digits.isEmpty then
      (c :: (sign.1 ++ digits), sign.2.dropWhile Char.isDigit)
    else ([], c :: rest)

def readWhole : Text → Option (Text × Text)
  | [] => none
  | c :: rest =>
    if c = '0' then some ([c], rest)
    else if c.isDigit then some (c :: rest.takeWhile Char.isDigit, rest.dropWhile Char.isDigit)
    else none

section
variable {F : Type}

def numberOf (floats : FloatCodec F) (front fraction exponent : Text) : PyJson F :=
  if fraction.isEmpty && exponent.isEmpty then
    .int ((PyText.intOf? (String.ofList front)).getD 0)
  else .float (floats.ofText (front ++ (fraction ++ exponent)))

def readNumber (floats : FloatCodec F) (text : Text) : Option (PyJson F × Text) :=
  let sign := readSign ['-'] text
  match readWhole sign.2 with
  | none => none
  | some (whole, rest) =>
    let fraction := readFraction rest
    let exponent := readExponent fraction.2
    some (numberOf floats (sign.1 ++ whole) fraction.1 exponent.1, exponent.2)

def names (floats : FloatCodec F) : List (Text × PyJson F) :=
  [("null".toList, .null), ("true".toList, .bool true), ("false".toList, .bool false),
    ("NaN".toList, .float floats.nan), ("Infinity".toList, .float floats.inf),
    ("-Infinity".toList, .float floats.negInf)]

def readScalar (floats : FloatCodec F) (text : Text) : Option (PyJson F × Text) :=
  match (names floats).findSome? (fun name => (literal? name.1 text).map (name.2, ·)) with
  | some r => some r
  | none => readNumber floats text

/-! ## Values -/

mutual

/-- `scan_once` -/
def readValue (floats : FloatCodec F) : Nat → Text → Option (PyJson F × Text)
  | 0, _ => none
  | _ + 1, [] => none
  | steps + 1, c :: rest =>
    if c = '"' then
      (readString (rest.length + 1) rest).map (fun r => (.str (String.ofList r.1), r.2))
    else if c = '[' then
      match behind? ']' (skipBlank rest) with
      | some after => some (.list [], after)
      | none => (readElements floats steps (skipBlank rest)).map (fun r => (.list r.1, r.2))
    else if c = '{' then
      match behind? '}' (skipBlank rest) with
      | some after => some (.dict [], after)
      | none => (readMembers floats steps [] (skipBlank rest)).map (fun r => (.dict r.1, r.2))
    else readScalar floats (c :: rest)

def readElements (floats : FloatCodec F) : Nat → Text → Option (List (PyJson F) × Text)
  | 0, _ => none
  | steps + 1, text =>
    match readValue floats steps text with
    | none => none
    | some (x, rest) =>
      match behind? ']' (skipBlank rest) with
      | some after => some ([x], after)
      | none =>
        match behind? ',' (skipBlank rest) with
        | none => none
        | some after =>
          (readElements floats steps (skipBlank after)).map (fun r => (x :: r.1, r.2))

def readMembers (floats : FloatCodec F) :
    Nat → Dict String (PyJson F) → Text → Option (Dict String (PyJson F) × Text)
  | 0, _, _ => none
  | steps + 1, entries, text =>
    match behind? '"' text with
    | none => none
    | some body =>
      match readString (body.length + 1) body with
      | none => none
      | some (key, rest) =>
        match behind? ':' (skipBlank rest) with
        | none => none
        | some rest =>
          match readValue floats steps (skipBlank rest) with
          | none => none
          | some (x, rest) =>
            let entries := entries.set (String.ofList key) x
            match behind? '}' (skipBlank rest) with
            | some after => some (entries, after)
            | none =>
              match behind? ',' (skipBlank rest) with
              | none => none
              | some after => readMembers floats steps entries (skipBlank after)

end

/-- `json.loads`; `none` stands for `JSONDecodeError`. -/
def loads (floats : FloatCodec F) (text : Text) : Option (PyJson F) :=
  match readValue floats (2 * text.length + 2) (skipBlank text) with
  | none => none
  | some (v, rest) => if (skipBlank rest).isEmpty then some v else none

/-! ## Tokens that were written -/

lemma skipBlank_append {blank : Text} (h : Blank blank) (rest : Text) :
    skipBlank (blank ++ rest) = skipBlank rest :=
  dropWhile_append_of_pos h

variable {c d : Char} {digits fraction exponent sign : Text}

lemma skipBlank_cons (h : isBlank c = false) (rest : Text) : skipBlank (c :: rest) = c :: rest :=
  dropWhile_cons_of_neg (by rw [h]; exact Bool.false_ne_true)

lemma behind?_self (c : Char) (rest : Text) : behind? c (c :: rest) = some rest := by
  rw [behind?, if_pos rfl]

lemma behind?_ne (h : d ≠ c) (rest : Text) : behind? c (d :: rest) = none := by
  rw [behind?, if_neg h]

lemma readString_plain (h : isPlain c = true) (steps : Nat) (rest : Text) :
    readString (steps + 1) (c :: rest) = (readString steps rest).map (fun r => (c :: r.1, r.2)) := by
  simp only [isPlain, Bool.and_eq_true, bne_iff_ne, decide_eq_true_eq] at h
  rw [readString, if_neg h.1.1, if_neg h.1.2, if_neg (by omega)]

lemma readEscape?_control : ∀ n : Fin 0x20, ∀ rest : Text,
    readEscape? ('u' :: '0' :: '0' :: Nat.digitChar (n.val / 16) :: Nat.digitChar (n.val % 16)
      :: rest) = some (Char.ofNat n.val, rest) := by
  have hhex : ∀ n : Fin 0x20, hexValue? (Nat.digitChar (n.val / 16)) = some (n.val / 16)
      ∧ hexValue? (Nat.digitChar (n.val % 16)) = some (n.val % 16)
      ∧ charOf n.val = Char.ofNat n.val := by decide
  have hzero : hexValue? '0' = some 0 := by decide
  intro n rest
  obtain ⟨hhigh, hlow, hchar⟩ := hhex n
  have hvalue : ((0 * 16 + 0) * 16 + n.val / 16) * 16 + n.val % 16 = n.val := by omega
  have hread : readHex? ('0' :: '0' :: Nat.digitChar (n.val / 16) :: Nat.digitChar (n.val % 16)
      :: rest) = some (n.val, rest) := by
    simp only [readHex?, hzero, hhigh, hlow, bind_eq_bind, bind_some, Option.pure_def, hvalue]
  have hno : ¬((decide (0xd800 ≤ n.val) && decide (n.val < 0xdc00)) = true) := by
    simp only [Bool.and_eq_true, decide_eq_true_eq]
    omega
  rw [readEscape?, if_pos rfl, readUnicode?, hread]
  simp only [if_neg hno, hchar]

lemma readEscape?_letter {letter : Char} (hesc : escapeChar c = ['\\', letter]) (rest : Text) :
    readEscape? (letter :: rest) = some (c, rest) := by
  unfold escapeChar at hesc
  iterate 7
    split at hesc
    · rw [‹c = _›, ← (cons.inj (cons.inj hesc).2).1]
      rfl
  split at hesc
  · cases (cons.inj (cons.inj hesc).2).2
  cases (cons.inj hesc).2

lemma readString_escapeChar (c : Char) (steps : Nat) (rest : Text) :
    readString (steps + 1) (escapeChar c ++ rest)
      = (readString steps rest).map (fun r => (c :: r.1, r.2)) := by
  rcases escapeChar_cases c with ⟨letter, -, heq⟩ | ⟨hsmall, heq⟩ | ⟨hplain, heq⟩
  · have hread := readEscape?_letter heq rest
    rw [heq]
    show readString (steps + 1) ('\\' :: letter :: rest) = _
    rw [readString, if_neg (by decide), if_pos rfl, hread]
  · have hread := readEscape?_control ⟨c.toNat, hsmall⟩ rest
    rw [Char.ofNat_toNat] at hread
    rw [heq]
    show readString (steps + 1) ('\\' :: 'u' :: '0' :: '0' :: Nat.digitChar (c.toNat / 16)
      :: Nat.digitChar (c.toNat % 16) :: rest) = _
    rw [readString, if_neg (by decide), if_pos rfl, hread]
  rw [heq]
  exact readString_plain hplain steps rest

lemma readString_flatMap (text rest : Text) : ∀ steps : Nat, text.length < steps →
    readString steps (text.flatMap escapeChar ++ ('"' :: rest)) = some (text, rest) := by
  induction text with
  | nil =>
    intro steps hsteps
    cases steps with
    | zero => exact absurd hsteps (Nat.not_lt_zero _)
    | succ => rw [flatMap_nil, nil_append, readString, if_pos rfl]
  | cons c text ih =>
    intro steps hsteps
    cases steps with
    | zero => exact absurd hsteps (Nat.not_lt_zero _)
    | succ steps =>
      rw [length_cons] at hsteps
      rw [flatMap_cons, append_assoc, readString_escapeChar, ih steps (by omega)]
      rfl

lemma length_le_flatMap (text : Text) : text.length ≤ (text.flatMap escapeChar).length := by
  induction text with
  | nil => exact Nat.le_refl 0
  | cons c =>
    have hone : 1 ≤ (escapeChar c).length := by
      rcases escapeChar_cases c with ⟨_, -, heq⟩ | ⟨-, heq⟩ | ⟨-, heq⟩ <;> rw [heq] <;>
        simp only [length_cons] <;> omega
    rw [flatMap_cons, length_append, length_cons]
    omega

lemma readString_written (text rest : Text) :
    readString ((text.flatMap escapeChar ++ ('"' :: rest)).length + 1)
      (text.flatMap escapeChar ++ ('"' :: rest)) = some (text, rest) := by
  apply readString_flatMap
  have hlength := length_le_flatMap text
  rw [length_append]
  omega

def Delimited (rest : Text) : Prop :=
  ∀ c ∈ rest.head?, c.isDigit = false ∧ c ≠ '.' ∧ c ≠ 'e' ∧ c ≠ 'E'

lemma takeWhile_digits {rest : Text} (h : ∀ c ∈ digits, c.isDigit = true)
    (hrest : ∀ c ∈ rest.head?, c.isDigit = false) : (digits ++ rest).takeWhile Char.isDigit = digits
      ∧ (digits ++ rest).dropWhile Char.isDigit = rest := by
  rw [takeWhile_append_of_pos h, dropWhile_append_of_pos h]
  cases rest with
  | nil => exact ⟨append_nil _, rfl⟩
  | cons c =>
    have hc : ¬(c.isDigit = true) := by
      rw [hrest c rfl]
      exact Bool.false_ne_true
    rw [takeWhile_cons_of_neg hc, dropWhile_cons_of_neg hc, append_nil]
    exact ⟨rfl, rfl⟩

lemma readWhole_append {whole rest : Text} (h : Whole whole)
    (hrest : ∀ c ∈ rest.head?, c.isDigit = false) :
    readWhole (whole ++ rest) = some (whole, rest) := by
  cases h with
  | zero => rw [singleton_append, readWhole, if_pos rfl]
  | digits hc hne hdigits =>
    obtain ⟨htake, hdrop⟩ := takeWhile_digits hdigits hrest
    rw [cons_append, readWhole, if_neg hne, if_pos hc, htake, hdrop]

lemma head_fraction {rest : Text} (h : Fraction fraction)
    (hrest : ∀ c ∈ rest.head?, c.isDigit = false) :
    ∀ c ∈ (fraction ++ rest).head?, c.isDigit = false := by
  cases h with
  | none => exact hrest
  | digits =>
    intro c hc
    rw [← some.inj hc]
    rfl

lemma head_exponent {rest : Text} (h : Exponent exponent) (hrest : Delimited rest) :
    ∀ c ∈ (exponent ++ rest).head?, c.isDigit = false ∧ c ≠ '.' := by
  cases h with
  | none => exact fun c hc => ⟨(hrest c hc).1, (hrest c hc).2.1⟩
  | digits he =>
    intro c hc
    rw [← some.inj hc]
    cases he with
    | inl he => rw [he]; decide
    | inr he => rw [he]; decide

lemma readFraction_append {rest : Text} (h : Fraction fraction)
    (hrest : ∀ c ∈ rest.head?, c.isDigit = false ∧ c ≠ '.') :
    readFraction (fraction ++ rest) = (fraction, rest) := by
  cases h with
  | none =>
    cases rest with
    | nil => rfl
    | cons c =>
      have hdot : c ≠ '.' := (hrest c rfl).2
      simp only [nil_append, readFraction, hdot, decide_false, Bool.false_and]
      rfl
  | @digits digits h =>
    obtain ⟨htake, hdrop⟩ := takeWhile_digits h.digit (fun c hc => (hrest c hc).1)
    have hne : digits.isEmpty = false := by
      rw [isEmpty_eq_false_iff]
      exact h.ne_nil
    simp only [cons_append, readFraction, htake, hdrop, hne, decide_true, Bool.not_false,
      Bool.and_self, if_true]

lemma head_of_digits (h : Digits digits) : ∃ c rest, digits = c :: rest ∧ c.isDigit = true := by
  cases digits with
  | nil => exact absurd rfl h.ne_nil
  | cons c rest => exact ⟨c, rest, rfl, h.digit c mem_cons_self⟩

lemma ne_of_isDigit (h : c.isDigit = true) (hd : d.isDigit = false) : c ≠ d := by
  intro heq
  rw [heq, hd] at h
  cases h

lemma readExponent_append {rest : Text} (h : Exponent exponent) (hrest : Delimited rest) :
    readExponent (exponent ++ rest) = (exponent, rest) := by
  cases h with
  | none =>
    cases rest with
    | nil => rfl
    | cons c =>
      have hletters := (hrest c rfl).2.2
      simp only [nil_append, readExponent, hletters.1, hletters.2, decide_false,
        Bool.false_and, Bool.or_self]
      rfl
  | @digits e sign digits he hsign hdigits =>
    obtain ⟨htake, hdrop⟩ := takeWhile_digits hdigits.digit (fun c hc => (hrest c hc).1)
    have hne : digits.isEmpty = false := by
      rw [isEmpty_eq_false_iff]
      exact hdigits.ne_nil
    have hletter : (decide (e = 'e') || decide (e = 'E')) = true := by
      simp only [Bool.or_eq_true, decide_eq_true_eq]
      exact he
    have hread : readSign ['+', '-'] (sign ++ (digits ++ rest)) = (sign, digits ++ rest) := by
      rcases hsign with rfl | rfl | rfl
      · obtain ⟨c, _, rfl, hc⟩ := head_of_digits hdigits
        have hnone : c ∉ (['+', '-'] : Text) := by
          intro hmem
          rcases mem_cons.1 hmem with heq | hmem
          · exact ne_of_isDigit hc rfl heq
          exact ne_of_isDigit hc rfl (mem_singleton.1 hmem)
        show (if c ∈ (['+', '-'] : Text) then _ else _) = _
        rw [if_neg hnone]
        rfl
      all_goals rfl
    simp only [cons_append, append_assoc, readExponent, hread, htake, hdrop, hne, hletter,
      Bool.not_false, Bool.and_self, if_true]

lemma readSign_minus {rest : Text} (hsign : sign = [] ∨ sign = ['-'])
    (hrest : ∀ c ∈ rest.head?, c ≠ '-') : readSign ['-'] (sign ++ rest) = (sign, rest) := by
  rcases hsign with rfl | rfl
  · cases rest with
    | nil => rfl
    | cons c =>
      show (if c ∈ (['-'] : Text) then _ else _) = _
      rw [if_neg (fun hmem => hrest c rfl (mem_singleton.1 hmem))]
  rfl

lemma head_whole {whole rest : Text} (h : Whole whole) :
    ∀ c ∈ (whole ++ rest).head?, c.isDigit = true := by
  intro c hc
  cases h with
  | zero => rw [← some.inj hc]; rfl
  | digits hdigit => rw [← some.inj hc]; exact hdigit

variable (floats : FloatCodec F)

lemma readNumber_append {whole rest : Text} (hsign : sign = [] ∨ sign = ['-'])
    (hwhole : Whole whole) (hfraction : Fraction fraction) (hexponent : Exponent exponent)
    (hrest : Delimited rest) :
    readNumber floats (sign ++ (whole ++ (fraction ++ (exponent ++ rest))))
      = some (numberOf floats (sign ++ whole) fraction exponent, rest) := by
  have hhead := head_exponent hexponent hrest
  have hminus : ∀ c ∈ (whole ++ (fraction ++ (exponent ++ rest))).head?, c ≠ '-' :=
    fun c hc => ne_of_isDigit (head_whole hwhole c hc) rfl
  have hread := readWhole_append hwhole (head_fraction hfraction (fun c hc => (hhead c hc).1))
  simp only [readNumber, readSign_minus hsign hminus, hread, readFraction_append hfraction hhead,
    readExponent_append hexponent hrest]

lemma readScalar_number {whole rest : Text} (hsign : sign = [] ∨ sign = ['-'])
    (hwhole : Whole whole) : readScalar floats (sign ++ (whole ++ rest))
      = readNumber floats (sign ++ (whole ++ rest)) := by
  have hnone : (names floats).findSome?
      (fun name => (literal? name.1 (sign ++ (whole ++ rest))).map (name.2, ·)) = none := by
    have hdigit : ∃ c others, whole ++ rest = c :: others ∧ c.isDigit = true := by
      cases hwhole with
      | zero => exact ⟨'0', rest, rfl, rfl⟩
      | digits hc _ _ => exact ⟨_, _, cons_append, hc⟩
    obtain ⟨c, others, heq, hc⟩ := hdigit
    have hne : ∀ d : Char, d.isDigit = false → d ≠ c := fun d hd => (ne_of_isDigit hc hd).symm
    rw [heq]
    rcases hsign with rfl | rfl
    · simp [names, literal?, hne 'n' rfl, hne 't' rfl, hne 'f' rfl, hne 'N' rfl,
        hne 'I' rfl, hne '-' rfl]
    simp [names, literal?, hne 'I' rfl]
  rw [readScalar, hnone]

/-! ## Values that were written -/

lemma intOf?_intText (i : Int) : intOf? (String.ofList (intText i)) = some i := by
  cases i with
  | ofNat n =>
    have hrepr : String.ofList (Nat.toDigits 10 n) = n.repr := Nat.repr_eq_ofList_toDigits.symm
    rw [intText, hrepr]
    exact intOf?_repr n
  | negSucc n =>
    have hdigits := @isDigit_of_mem_toDigits (n + 1)
    have hspaces : ∀ c ∈ Nat.toDigits 10 (n + 1), PyText.isSpace c = false :=
      fun c hc => isSpace_of_isDigit (hdigits c hc)
    have hstrip : stripChars (String.ofList ('-' :: Nat.toDigits 10 (n + 1)))
        = '-' :: Nat.toDigits 10 (n + 1) := by
      have hself := @PyText.strip_append ('-' :: Nat.toDigits 10 (n + 1)) []
        (fun c hc => by rw [← some.inj hc]; rfl)
        (fun c hc => by
          have hmem := mem_of_getLast? hc
          rcases mem_cons.1 hmem with heq | hmem
          · rw [heq]; rfl
          exact hspaces c hmem)
        (cons_ne_nil _ _) (nofun)
      rw [append_nil] at hself
      rw [stripChars, String.toList_ofList]
      exact hself
    have hvalue : natValue? (Nat.toDigits 10 (n + 1)) = some (n + 1) := by
      rw [natValue?_of_isDigit hdigits Nat.toDigits_ne_nil, Nat.ofDigitChars_ten_toDigits]
    rw [intText, intOf?, hstrip]
    simp only [hvalue]
    rfl

lemma head_value {text : Text} (h : Json .value text) :
    ∃ c rest, text = c :: rest ∧ isBlank c = false ∧ c ≠ ']' := by
  have hdigit : ∀ c : Char, c.isDigit = true → isBlank c = false ∧ c ≠ ']' := by
    intro c hc
    refine ⟨?_, ne_of_isDigit hc rfl⟩
    simp only [isBlank, Bool.or_eq_false_iff, beq_eq_false_iff_ne]
    exact ⟨⟨⟨ne_of_isDigit hc rfl, ne_of_isDigit hc rfl⟩, ne_of_isDigit hc rfl⟩,
      ne_of_isDigit hc rfl⟩
  cases h with
  | constant h =>
    cases h with
    | null => exact ⟨'n', "ull".toList, rfl, rfl, by decide⟩
    | true => exact ⟨'t', "rue".toList, rfl, rfl, by decide⟩
    | false => exact ⟨'f', "alse".toList, rfl, rfl, by decide⟩
  | number h =>
    cases h with
    | parts hsign hwhole _ _ =>
      rcases hsign with rfl | rfl
      · cases hwhole with
        | zero => exact ⟨'0', _, cons_append, hdigit '0' rfl⟩
        | digits hc _ _ => exact ⟨_, _, cons_append, hdigit _ hc⟩
      exact ⟨'-', _, cons_append, rfl, by decide⟩
  | string _ => exact ⟨'"', _, rfl, rfl, by decide⟩
  | emptyArray _ => exact ⟨'[', _, rfl, rfl, by decide⟩
  | array _ => exact ⟨'[', _, rfl, rfl, by decide⟩
  | _ => exact ⟨'\x7b', _, rfl, rfl, by decide⟩

lemma skipBlank_value {text : Text} (h : Json .value text) (rest : Text) :
    skipBlank (text ++ rest) = text ++ rest ∧ behind? ']' (text ++ rest) = none := by
  obtain ⟨_, _, rfl, hblank, hne⟩ := head_value h
  rw [cons_append]
  exact ⟨skipBlank_cons hblank _, behind?_ne hne _⟩

lemma readValue_number {whole rest : Text} (hsign : sign = [] ∨ sign = ['-'])
    (hwhole : Whole whole) (hfraction : Fraction fraction) (hexponent : Exponent exponent)
    (hrest : Delimited rest) (steps : Nat) :
    readValue floats (steps + 1) (sign ++ (whole ++ (fraction ++ (exponent ++ rest))))
      = some (numberOf floats (sign ++ whole) fraction exponent, rest) := by
  have hread := readNumber_append floats hsign hwhole hfraction hexponent hrest
  rw [← readScalar_number floats hsign hwhole] at hread
  have hhead : ∃ c others, sign ++ (whole ++ (fraction ++ (exponent ++ rest))) = c :: others
      ∧ c ≠ '"' ∧ c ≠ '[' ∧ c ≠ '{' := by
    rcases hsign with rfl | rfl
    · cases hwhole with
      | zero => exact ⟨'0', _, cons_append, by decide, by decide, by decide⟩
      | digits hc _ _ =>
        exact ⟨_, _, cons_append, ne_of_isDigit hc rfl, ne_of_isDigit hc rfl, ne_of_isDigit hc rfl⟩
    exact ⟨'-', _, cons_append, by decide, by decide, by decide⟩
  obtain ⟨c, others, heq, hquote, hbracket, hbrace⟩ := hhead
  rw [heq] at hread ⊢
  rw [readValue, if_neg hquote, if_neg hbracket, if_neg hbrace, hread]

lemma readValue_int (i : Int) {rest : Text} (hrest : Delimited rest) (steps : Nat) :
    readValue floats (steps + 1) (intText i ++ rest) = some (.int i, rest) := by
  have hparts : ∀ (sign : Text) (n : Nat), sign = [] ∨ sign = ['-'] →
      intText i = sign ++ Nat.toDigits 10 n →
      readValue floats (steps + 1) (intText i ++ rest) = some (.int i, rest) := by
    intro sign n hsign heq
    have hread := readValue_number floats hsign (whole_toDigits n) .none .none hrest steps
    have hvalue : numberOf floats (sign ++ Nat.toDigits 10 n) [] [] = .int i := by
      rw [← heq]
      show PyJson.int ((intOf? (String.ofList (intText i))).getD 0) = _
      rw [intOf?_intText]
      rfl
    rw [hvalue, nil_append, nil_append, ← append_assoc, ← heq] at hread
    exact hread
  cases i with
  | ofNat n => exact hparts [] n (.inl rfl) rfl
  | negSucc n => exact hparts ['-'] (n + 1) (.inr rfl) rfl

lemma readValue_float {f : F} (hfinite : floats.finite f = true) {rest : Text}
    (hrest : Delimited rest) (steps : Nat) :
    readValue floats (steps + 1) (floats.text f ++ rest) = some (.float f, rest) := by
  have htext := floats.ofText_text f hfinite
  have hshape := floats.text_shape f hfinite
  generalize floats.text f = text at htext hshape
  cases hshape with
  | @parts sign whole fraction exponent hsign hwhole hfraction hexponent hne =>
    have hread := readValue_number floats hsign hwhole hfraction hexponent hrest steps
    have hvalue : numberOf floats (sign ++ whole) fraction exponent = .float f := by
      have hfilled : (fraction.isEmpty && exponent.isEmpty) = false := by
        rw [Bool.and_eq_false_iff, isEmpty_eq_false_iff, isEmpty_eq_false_iff]
        exact hne
      rw [numberOf, hfilled, if_neg Bool.false_ne_true, append_assoc, htext]
    rw [hvalue] at hread
    simp only [append_assoc]
    exact hread

lemma readValue_string (s : String) (rest : Text) (steps : Nat) :
    readValue floats (steps + 1) (stringText s.toList ++ rest) = some (.str s, rest) := by
  have htext : stringText s.toList ++ rest
      = '"' :: (s.toList.flatMap escapeChar ++ ('"' :: rest)) := by
    simp only [stringText, quoted, cons_append, append_assoc, nil_append]
  rw [htext, readValue, if_pos rfl, readString_written]
  show some (PyJson.str (String.ofList s.toList), rest) = _
  rw [String.ofList_toList]

def joinedItems (floats : FloatCodec F) : List (PyJson F) → Text
  | [] => []
  | x :: rest => dumps floats x ++ dumpsRest floats rest

def joinedEntries (floats : FloatCodec F) : List (String × PyJson F) → Text
  | [] => []
  | (key, x) :: rest =>
    stringText key.toList ++ (": ".toList ++ (dumps floats x ++ dumpsEntries floats rest))

lemma delimited_cons (h : c.isDigit = false ∧ c ≠ '.' ∧ c ≠ 'e' ∧ c ≠ 'E') (rest : Text) :
    Delimited (c :: rest) := by
  intro _ hd
  rw [← some.inj hd]
  exact h

mutual

lemma readValue_dumps : ∀ v : PyJson F, Lawful floats v → ∀ (steps : Nat) (rest : Text),
    (dumps floats v).length ≤ steps → Delimited rest →
      readValue floats (steps + 1) (dumps floats v ++ rest) = some (v, rest)
  | .null, _, _, _, _, _ => by rw [dumps]; rfl
  | .bool true, _, _, _, _, _ => by rw [dumps]; rfl
  | .bool false, _, _, _, _, _ => by rw [dumps]; rfl
  | .int i, _, steps, rest, _, hrest => by rw [dumps]; exact readValue_int floats i hrest steps
  | .float f, h, steps, rest, _, hrest => by
      rw [Lawful] at h
      rw [dumps]
      exact readValue_float floats h hrest steps
  | .str s, _, steps, rest, _, _ => by rw [dumps]; exact readValue_string floats s rest steps
  | .list [], _, steps, rest, _, _ => by rw [dumps]; rfl
  | .list (x :: items), h, steps, rest, hsteps, _ => by
      have hall : AllLawful floats (x :: items) := by rw [Lawful] at h; exact h
      have hfirst : Json .value (dumps floats x) := by
        rw [AllLawful] at hall
        exact dumps_json floats x hall.1
      have htext : dumps floats (.list (x :: items)) ++ rest
          = '[' :: (dumps floats x ++ (dumpsRest floats items ++ (']' :: rest))) := by
        rw [dumps]
        simp only [cons_append, append_assoc, nil_append]
      have hlength : (joinedItems floats (x :: items)).length + 2 ≤ steps := by
        rw [dumps] at hsteps
        simp only [length_cons, length_append, length_nil] at hsteps
        rw [joinedItems, length_append]
        omega
      have hread := readElements_dumps (x :: items) hall (cons_ne_nil _ _) steps rest
        (by omega)
      rw [joinedItems, append_assoc] at hread
      obtain ⟨hskip, hnone⟩ := skipBlank_value hfirst (dumpsRest floats items ++ (']' :: rest))
      rw [htext, readValue, if_neg (by decide), if_pos rfl, hskip, hnone]
      simp only [hread, map_some]
  | .dict [], _, steps, rest, _, _ => by rw [dumps]; rfl
  | .dict ((key, x) :: entries), h, steps, rest, hsteps, _ => by
      rw [Lawful] at h
      have htext : dumps floats (.dict ((key, x) :: entries)) ++ rest
          = '{' :: (joinedEntries floats ((key, x) :: entries) ++ ('}' :: rest)) := by
        rw [dumps, joinedEntries]
        simp only [cons_append, append_assoc, nil_append]
      have hlength : (joinedEntries floats ((key, x) :: entries)).length + 2 ≤ steps := by
        rw [dumps] at hsteps
        simp only [length_cons, length_append, length_nil] at hsteps
        rw [joinedEntries]
        simp only [length_append]
        omega
      have hread := readMembers_dumps ((key, x) :: entries) h.2 (cons_ne_nil _ _) []
        h.1 steps rest (by omega)
      -- the text begins with the quotation mark of the first key
      have hquote : ∃ others, joinedEntries floats ((key, x) :: entries) ++ ('}' :: rest)
          = '"' :: others := ⟨_, rfl⟩
      obtain ⟨others, hothers⟩ := hquote
      rw [htext, readValue, if_neg (by decide), if_neg (by decide), if_pos rfl]
      rw [hothers] at hread ⊢
      rw [skipBlank_cons rfl, behind?_ne (by decide)]
      simp only [hread, map_some, nil_append]

lemma readElements_dumps : ∀ items : List (PyJson F), AllLawful floats items → items ≠ [] →
    ∀ (steps : Nat) (rest : Text), (joinedItems floats items).length + 2 ≤ steps →
      readElements floats steps (joinedItems floats items ++ (']' :: rest)) = some (items, rest)
  | [], _, hne, _, _, _ => absurd rfl hne
  | [x], h, _, steps, rest, hsteps => by
      rw [AllLawful] at h
      obtain ⟨steps, rfl⟩ : ∃ n, steps = n + 2 := ⟨steps - 2, by omega⟩
      rw [joinedItems, dumpsRest, append_nil] at hsteps ⊢
      rw [readElements, readValue_dumps x h.1 steps (']' :: rest) (by omega)
        (delimited_cons (by decide) rest)]
      simp only [skipBlank_cons (c := ']') rfl, behind?_self]
  | x :: y :: others, h, _, steps, rest, hsteps => by
      rw [AllLawful] at h
      have hsecond : Json .value (dumps floats y) := by
        have hall := h.2
        rw [AllLawful] at hall
        exact dumps_json floats y hall.1
      obtain ⟨steps, rfl⟩ : ∃ n, steps = n + 2 := ⟨steps - 2, by omega⟩
      have htext : joinedItems floats (x :: y :: others) ++ (']' :: rest) = dumps floats x
          ++ (',' :: ' ' :: (joinedItems floats (y :: others) ++ (']' :: rest))) := by
        rw [joinedItems, dumpsRest, joinedItems, append_assoc]
        rfl
      have hlength : (dumps floats x).length + (joinedItems floats (y :: others)).length + 2
          ≤ steps + 2 := by
        rw [joinedItems, dumpsRest] at hsteps
        rw [joinedItems]
        simp only [length_append] at hsteps ⊢
        omega
      have hpos : 0 < (dumps floats x).length := by
        obtain ⟨c, _, heq, -, -⟩ := head_value (dumps_json floats x h.1)
        rw [heq]
        exact Nat.succ_pos _
      have hread := readElements_dumps (y :: others) h.2 (cons_ne_nil _ _) (steps + 1) rest
        (by omega)
      have hskip : skipBlank (' ' :: (joinedItems floats (y :: others) ++ (']' :: rest)))
          = joinedItems floats (y :: others) ++ (']' :: rest) := by
        rw [joinedItems, append_assoc]
        exact (skipBlank_value hsecond _).1
      rw [htext, readElements, readValue_dumps x h.1 steps _ (by omega)
        (delimited_cons (by decide) _)]
      simp only [skipBlank_cons (c := ',') rfl, behind?_ne (c := ']') (d := ',') (by decide),
        behind?_self, hskip, hread, map_some]

lemma readMembers_dumps : ∀ entries : List (String × PyJson F), LawfulEntries floats entries →
    entries ≠ [] → ∀ (acc : Dict String (PyJson F)),
    (acc.map (·.1) ++ entries.map (·.1)).Nodup → ∀ (steps : Nat) (rest : Text),
    (joinedEntries floats entries).length + 2 ≤ steps →
      readMembers floats steps acc (joinedEntries floats entries ++ ('}' :: rest))
        = some (acc ++ entries, rest)
  | [], _, hne, _, _, _, _, _ => absurd rfl hne
  | (key, x) :: others, h, _, acc, hkeys, steps, rest, hsteps => by
      rw [LawfulEntries] at h
      have hvalue := dumps_json floats x h.1
      obtain ⟨steps, rfl⟩ : ∃ n, steps = n + 2 := ⟨steps - 2, by omega⟩
      have htext : joinedEntries floats ((key, x) :: others) ++ ('}' :: rest)
          = '"' :: (key.toList.flatMap escapeChar ++ ('"' :: ':' :: ' ' :: (dumps floats x
            ++ (dumpsEntries floats others ++ ('}' :: rest))))) := by
        rw [joinedEntries]
        simp only [stringText, quoted, cons_append, append_assoc, nil_append]
        rfl
      have hlength : (dumps floats x).length + (dumpsEntries floats others).length + 2 ≤ steps := by
        have hquotes : 2 ≤ (stringText key.toList).length := by
          simp only [stringText, quoted, length_cons, length_append, length_nil]
          omega
        have hcolon : (": ".toList).length = 2 := rfl
        rw [joinedEntries] at hsteps
        simp only [length_append] at hsteps
        omega
      have hskip : ∀ tail, skipBlank (' ' :: (dumps floats x ++ tail)) = dumps floats x ++ tail :=
        fun tail => (skipBlank_value hvalue tail).1
      have hfresh : key ∉ Dict.keys acc := by
        intro hmem
        rw [nodup_append] at hkeys
        exact hkeys.2.2 key hmem key mem_cons_self rfl
      have hset : acc.set (String.ofList key.toList) x = acc ++ [(key, x)] := by
        rw [String.ofList_toList]
        exact Dict.set_of_notMem hfresh x
      rw [htext, readMembers, behind?_self]
      simp only [readString_written, skipBlank_cons (c := ':') rfl, behind?_self, hskip]
      cases others with
      | nil =>
        rw [dumpsEntries, nil_append, readValue_dumps x h.1 steps _ (by omega)
          (delimited_cons (by decide) rest)]
        simp only [hset, skipBlank_cons (c := '\x7d') rfl, behind?_self]
      | cons entry others =>
        have htail : dumpsEntries floats (entry :: others) ++ ('}' :: rest)
            = ',' :: ' ' :: (joinedEntries floats (entry :: others) ++ ('}' :: rest)) := rfl
        have hquote : ∃ tail, joinedEntries floats (entry :: others) ++ ('}' :: rest)
            = '"' :: tail := ⟨_, rfl⟩
        have hkeys' : ((acc ++ [(key, x)]).map (·.1) ++ (entry :: others).map (·.1)).Nodup := by
          rw [map_append, append_assoc]
          exact hkeys
        have hrest : (joinedEntries floats (entry :: others)).length + 2
            ≤ (dumpsEntries floats (entry :: others)).length := by
          rw [dumpsEntries, joinedEntries]
          simp only [length_append]
          have hcomma : (", ".toList).length = 2 := rfl
          omega
        have hread := readMembers_dumps (entry :: others) h.2 (cons_ne_nil _ _)
          (acc ++ [(key, x)]) hkeys' (steps + 1) rest (by omega)
        obtain ⟨tail, hquote⟩ := hquote
        rw [htail, readValue_dumps x h.1 steps _ (by omega) (delimited_cons (by decide) _)]
        rw [hquote] at hread ⊢
        have hspace : skipBlank (' ' :: '"' :: tail) = '"' :: tail := rfl
        simp only [hset, skipBlank_cons (c := ',') rfl,
          behind?_ne (c := '\x7d') (d := ',') (by decide), behind?_self, hspace, hread,
          append_assoc, singleton_append]

end

lemma loads_dumps {v : PyJson F} (h : Lawful floats v) {before after : Text}
    (hbefore : Blank before) (hafter : Blank after) :
    loads floats (before ++ (dumps floats v ++ after)) = some v := by
  have hdelimited : Delimited after := by
    intro c hc
    have hblank := hafter c (mem_of_head? hc)
    simp only [isBlank, Bool.or_eq_true, beq_iff_eq] at hblank
    rcases hblank with ((rfl | rfl) | rfl) | rfl <;> decide
  have hend : skipBlank after = [] := by
    have hnil := skipBlank_append hafter []
    rw [append_nil] at hnil
    exact hnil
  have hread := readValue_dumps floats v h
    (2 * (before ++ (dumps floats v ++ after)).length + 1) after
    (by simp only [length_append]; omega) hdelimited
  rw [loads, skipBlank_append hbefore, (skipBlank_value (dumps_json floats v h) after).1, hread]
  simp only [hend, isEmpty_nil, if_true]

end
end DeterminFlow.Library.JsonCodec
