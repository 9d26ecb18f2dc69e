/-
  Library.JsonWeight
  **HOW MUCH TEXT A JSON VALUE NEEDS.**

  Blanks and numbers can be written in more than one way; of everything else a
  text that reads as a value has at least as much as the text that the writer
  gives.  So a text from which something was taken away does not read as the
  value any more.

  Characters outside ASCII may be priced twice: a text that does not hold them
  can only spell them with escapes, and an escape costs two.
-/
import DeterminFlow.Library.JsonLoad
import Mathlib.Algebra.BigOperators.Group.List.Basic
import Mathlib.Algebra.Order.Ring.Nat

namespace DeterminFlow.Library.JsonCodec

open JsonText List Option

/-! ## Prices -/

def isCounted (c : Char) : Bool :=
  !isBlank c && !isHex c && c != '+' && c != '-' && c != '.'

def cost (c : Char) : Nat := if isCounted c then 1 else 0

/-- A price of characters: one for each counted character, and at most two for
one outside ASCII. -/
structure Price where
  of : Char → Nat
  ascii : ∀ c, c.toNat < 128 → of c = cost c
  le_two : ∀ c, of c ≤ 2

def total (price : Char → Nat) (text : Text) : Nat := (text.map price).sum

@[simp] lemma total_nil (price : Char → Nat) : total price [] = 0 := rfl

@[simp] lemma total_cons (price : Char → Nat) (c : Char) (text : Text) :
    total price (c :: text) = price c + total price text := by
  rw [total, map_cons, sum_cons]
  rfl

@[simp] lemma total_append (price : Char → Nat) (text other : Text) :
    total price (text ++ other) = total price text + total price other := by
  rw [total, map_append, sum_append]
  rfl

lemma total_eq_zero {price : Char → Nat} {text : Text} (h : ∀ c ∈ text, price c = 0) :
    total price text = 0 := by
  induction text with
  | nil => rfl
  | cons c rest ih =>
    rw [total_cons, h c mem_cons_self, ih (fun d hd => h d (mem_cons_of_mem c hd))]

lemma cost_le_one (c : Char) : cost c ≤ 1 := by
  unfold cost
  split <;> omega

variable {c : Char}

lemma cost_isHex (h : isHex c = true) : cost c = 0 := by
  simp [cost, isCounted, h]

lemma isHex_of_isDigit (h : c.isDigit = true) : isHex c = true := by
  simp [isHex, h]

lemma lt_of_isDigit (h : c.isDigit = true) : c.toNat < 128 := by
  have hbounds := PyText.bounds_of_isDigit h
  omega

section
variable (price : Price) {c : Char} {m n steps : Nat} {mid : Text} {floats : FloatCodec F}
  {v : PyJson F}

lemma price_isDigit (h : c.isDigit = true) : price.of c = 0 := by
  rw [price.ascii c (lt_of_isDigit h), cost_isHex (isHex_of_isDigit h)]

lemma total_escapeChar_le (c : Char) : total price.of (escapeChar c) ≤ 2 := by
  have hslash : price.of '\\' = 1 := price.ascii '\\' (by decide)
  rcases escapeChar_cases c with ⟨letter, hletter, heq⟩ | ⟨_, heq⟩ | ⟨-, heq⟩
  · have hascii : ∀ d ∈ escapeLetters, d.toNat < 128 := by decide
    rw [heq, total_cons, total_cons, total_nil, hslash, price.ascii letter (hascii letter hletter)]
    have hone := cost_le_one letter
    omega
  · have hdigit : ∀ d : Fin 16, (Nat.digitChar d.val).toNat < 128
        ∧ cost (Nat.digitChar d.val) = 0 := by decide
    have hhigh := hdigit ⟨c.toNat / 16, by omega⟩
    have hlow := hdigit ⟨c.toNat % 16, by omega⟩
    have hu : price.of 'u' = 1 := price.ascii 'u' (by decide)
    have hzero : price.of '0' = 0 := price.ascii '0' (by decide)
    rw [heq]
    simp only [total_cons, total_nil, hslash, hu, hzero, price.ascii _ hhigh.1, hhigh.2,
      price.ascii _ hlow.1, hlow.2]
    omega
  rw [heq, total_cons, total_nil]
  exact price.le_two c

/-! ## The weight of a value -/

variable {F : Type}

mutual

def weigh (price : Price) : PyJson F → Nat
  | .null => total price.of "null".toList
  | .bool true => total price.of "true".toList
  | .bool false => total price.of "false".toList
  | .int _ | .float _ => 0
  | .str s => total price.of (stringText s.toList)
  | .list items => 1 + max 1 (weighItems price items)
  | .dict entries => 1 + max 1 (weighEntries price entries)

def weighItems (price : Price) : List (PyJson F) → Nat
  | [] => 0
  | x :: rest => weigh price x + 1 + weighItems price rest

def weighEntries (price : Price) : List (String × PyJson F) → Nat
  | [] => 0
  | (key, x) :: rest =>
    total price.of (stringText key.toList) + 1 + weigh price x + 1 + weighEntries price rest

end

lemma weighEntries_set (entries : Dict String (PyJson F)) (key : String) (x : PyJson F) :
    weighEntries price (entries.set key x) ≤ weighEntries price entries
      + (total price.of (stringText key.toList) + 1 + weigh price x + 1) := by
  induction entries with
  | nil =>
    simp only [Dict.set, weighEntries]
    omega
  | cons =>
    rw [Dict.set]
    split
    · rw [weighEntries, weighEntries]
      omega
    rw [weighEntries, weighEntries]
    omega

/-! ## Readings -/

/-- `rest` stands behind a part of `text` that costs at least `n`. -/
def Pays (text rest : Text) (n : Nat) : Prop :=
  ∃ used, text = used ++ rest ∧ n ≤ total cost used

lemma Pays.trans {text rest : Text} (h : Pays text mid m) (h' : Pays mid rest n) :
    Pays text rest (m + n) := by
  obtain ⟨used, rfl, _⟩ := h
  obtain ⟨used', rfl, _⟩ := h'
  refine ⟨used ++ used', (append_assoc _ _ _).symm, ?_⟩
  rw [total_append]
  omega

lemma Pays.mono {text rest : Text} (h : Pays text rest n) (hle : m ≤ n) : Pays text rest m := by
  obtain ⟨used, heq, hn⟩ := h
  exact ⟨used, heq, le_trans hle hn⟩

lemma Pays.cons (c : Char) (rest : Text) : Pays (c :: rest) rest (cost c) :=
  ⟨[c], rfl, by rw [total_cons, total_nil]; exact le_rfl⟩

lemma Pays.skipBlank (text : Text) : Pays text (skipBlank text) 0 :=
  ⟨text.takeWhile isBlank, takeWhile_append_dropWhile.symm, Nat.zero_le _⟩

lemma Pays.mem {text rest : Text} (h : Pays text rest n) (hc : c ∈ rest) : c ∈ text := by
  obtain ⟨used, rfl, -⟩ := h
  exact mem_append_right used hc

lemma eq_of_behind? {text rest : Text} (h : behind? c text = some rest) : text = c :: rest := by
  cases text with
  | nil => cases h
  | cons d =>
    rw [behind?] at h
    split at h
    · rw [← some.inj h, ‹d = c›]
    cases h

lemma pays_of_behind? {text rest : Text} (h : behind? c text = some rest) :
    Pays text rest (cost c) := by
  rw [eq_of_behind? h]
  exact Pays.cons c rest

lemma eq_of_literal? {name text rest : Text} (h : literal? name text = some rest) :
    text = name ++ rest := by
  rw [literal?] at h
  split at h
  · obtain ⟨_, rfl⟩ := isPrefixOf_iff_prefix.1 ‹_›
    rw [drop_left] at h
    rw [← some.inj h]
  cases h

lemma pays_of_readHex? {text rest : Text} (h : readHex? text = some (n, rest)) :
    Pays text rest 0 := by
  unfold readHex? at h
  split at h
  · rename_i a b c d others
    simp only [Option.bind_eq_bind, Option.bind_eq_some_iff, Option.pure_def, some.injEq,
      Prod.mk.injEq] at h
    obtain ⟨_, -, _, -, _, -, _, -, -, rfl⟩ := h
    exact ⟨[a, b, c, d], rfl, Nat.zero_le _⟩
  cases h

lemma pays_of_readUnicode? {text rest : Text} (h : readUnicode? text = some (c, rest)) :
    Pays text rest 0 := by
  unfold readUnicode? at h
  split at h
  · cases h
  rename_i n behind hhex
  have hpays := pays_of_readHex? hhex
  split at h
  · split at h
    · rename_i low behind' hlow
      simp only [lowSurrogate?, Option.bind_eq_bind, Option.bind_eq_some_iff] at hlow
      obtain ⟨tail, htail, ⟨_, others⟩, hothers, hlow⟩ := hlow
      split at hlow
      · have hsecond := pays_of_readHex? hothers
        have hslash : Pays behind tail 0 := ⟨_, eq_of_literal? htail, Nat.zero_le _⟩
        have hall := hpays.trans (hslash.trans hsecond)
        have hbehind : others = behind' := (Prod.mk.inj (some.inj hlow)).2
        rw [hbehind] at hall
        rw [← (Prod.mk.inj (some.inj h)).2]
        exact hall
      cases hlow
    rw [← (Prod.mk.inj (some.inj h)).2]
    exact hpays
  rw [← (Prod.mk.inj (some.inj h)).2]
  exact hpays

lemma total_unescape? {letter : Char} (h : unescape? letter = some c) :
    total price.of (escapeChar c) ≤ 1 + cost letter := by
  have hletters : ∀ d ∈ ['"', '\\', '/', '\x08', '\x0c', '\n', '\r', '\t'],
      ∀ e ∈ escapeChar d, e.toNat < 128 := by decide
  have hsame : ∀ text : Text, (∀ e ∈ text, e.toNat < 128) → total price.of text = total cost text := by
    intro text hascii
    induction text with
    | nil => rfl
    | cons e rest ih =>
      rw [total_cons, total_cons, price.ascii e (hascii e mem_cons_self),
        ih (fun d hd => hascii d (mem_cons_of_mem e hd))]
  have hmem : c ∈ ['"', '\\', '/', '\x08', '\x0c', '\n', '\r', '\t']
      ∧ total cost (escapeChar c) ≤ 1 + cost letter := by
    unfold unescape? at h
    iterate 8
      split at h
      · rw [‹letter = _›, ← some.inj h]; decide
    cases h
  rw [hsame _ (hletters c hmem.1)]
  exact hmem.2

lemma pays_of_readEscape? {text rest : Text} (h : readEscape? text = some (c, rest)) :
    ∃ n, Pays text rest n ∧ total price.of (escapeChar c) ≤ 1 + n := by
  cases text with
  | nil => cases h
  | cons letter others =>
    rw [readEscape?] at h
    split at h
    · rename_i hu
      rw [hu]
      refine ⟨1, (Pays.cons 'u' others).trans (pays_of_readUnicode? h), ?_⟩
      exact total_escapeChar_le price c
    obtain ⟨_, hd, heq⟩ := map_eq_some_iff.1 h
    rw [← (Prod.mk.inj heq).2, ← (Prod.mk.inj heq).1]
    exact ⟨cost letter, Pays.cons letter others, total_unescape? price hd⟩

def Spelled (text : Text) : Prop := ∀ c ∈ text, price.of c ≤ cost c

lemma Spelled.rest {price : Price} {text rest : Text} {n : Nat} (h : Spelled price text)
    (hpays : Pays text rest n) : Spelled price rest :=
  fun c hc => h c (hpays.mem hc)

lemma escapeChar_plain (hquote : c ≠ '"') (hslash : c ≠ '\\') (hlarge : ¬c.toNat < 0x20) :
    escapeChar c = [c] := by
  rcases escapeChar_cases c with ⟨_, -, heq⟩ | ⟨hsmall, -⟩ | ⟨-, heq⟩
  · unfold escapeChar at heq
    rw [if_neg hquote, if_neg hslash] at heq
    have hne : ∀ d : Char, d.toNat < 0x20 → c ≠ d := by
      intro d hd hcd
      rw [hcd] at hlarge
      exact hlarge hd
    rw [if_neg (hne _ (by decide)), if_neg (hne _ (by decide)), if_neg (hne _ (by decide)),
      if_neg (hne _ (by decide)), if_neg (hne _ (by decide)), if_neg hlarge] at heq
    cases (cons.inj heq).2
  · exact absurd hsmall hlarge
  exact heq

lemma pays_of_readString : ∀ {text rest s : Text}, Spelled price text →
    readString steps text = some (s, rest) →
      Pays text rest (total price.of (s.flatMap escapeChar) + 1) := by
  induction steps with
  | zero => intro text rest s _ h; cases h
  | succ steps ih =>
    intro text rest s hspelled h
    cases text with
    | nil => cases h
    | cons c others =>
      rw [readString] at h
      split at h
      · rename_i hquote
        rw [← (Prod.mk.inj (some.inj h)).1, ← (Prod.mk.inj (some.inj h)).2, hquote]
        exact Pays.cons '"' others
      split at h
      · rename_i _ hslash
        split at h
        · cases h
        rename_i d behind hescape
        obtain ⟨_, hpays, _⟩ := pays_of_readEscape? price hescape
        obtain ⟨⟨s', rest'⟩, hread, heq⟩ := map_eq_some_iff.1 h
        have hs : d :: s' = s := (Prod.mk.inj heq).1
        have hrest : rest' = rest := (Prod.mk.inj heq).2
        rw [← hs, ← hrest, hslash]
        have hfirst := (Pays.cons '\\' others).trans hpays
        rw [hslash] at hspelled
        have hall := hfirst.trans (ih (hspelled.rest hfirst) hread)
        apply hall.mono
        rw [flatMap_cons, total_append]
        have hone : cost '\\' = 1 := by decide
        omega
      rename_i hquote hslash
      split at h
      · cases h
      rename_i hlarge
      obtain ⟨⟨s', rest'⟩, hread, heq⟩ := map_eq_some_iff.1 h
      have hs : c :: s' = s := (Prod.mk.inj heq).1
      have hrest : rest' = rest := (Prod.mk.inj heq).2
      rw [← hs, ← hrest]
      have hfirst := Pays.cons c others
      have hall := hfirst.trans (ih (hspelled.rest hfirst) hread)
      apply hall.mono
      rw [flatMap_cons, total_append, escapeChar_plain hquote hslash hlarge, total_cons,
        total_nil]
      have hc := hspelled c mem_cons_self
      omega

/-! ## Values and their texts -/

lemma total_quoted (s : Text) : total price.of (stringText s)
    = total price.of (s.flatMap escapeChar) + 2 := by
  have hquote : price.of '"' = 1 := price.ascii '"' (by decide)
  rw [stringText, quoted, total_cons, total_append, total_cons, total_nil, hquote]
  omega

lemma total_literal : ∀ name ∈ ["null".toList, "true".toList, "false".toList],
    total price.of name = total cost name := by
  have hsame : ∀ name ∈ ["null".toList, "true".toList, "false".toList],
      ∀ c ∈ name, c.toNat < 128 := by decide
  intro name hname
  have hascii := hsame name hname
  rw [total, total, map_congr_left (fun c hc => price.ascii c (hascii c hc))]

lemma isContainer_numberOf (floats : FloatCodec F) (front fraction exponent : Text) :
    isContainer (numberOf floats front fraction exponent) = false
      ∧ weigh price (numberOf floats front fraction exponent) = 0 := by
  unfold numberOf
  split
  · exact ⟨rfl, by rw [weigh]⟩
  exact ⟨rfl, by rw [weigh]⟩

lemma readSign_eq (signs text : Text) : text = (readSign signs text).1 ++ (readSign signs text).2 := by
  cases text with
  | nil => rfl
  | cons =>
    rw [readSign]
    split <;> rfl

lemma readFraction_eq (text : Text) : text = (readFraction text).1 ++ (readFraction text).2 := by
  cases text with
  | nil => rfl
  | cons c =>
    rw [readFraction]
    split
    · exact congrArg (List.cons c) takeWhile_append_dropWhile.symm
    rfl

lemma readExponent_eq (text : Text) : text = (readExponent text).1 ++ (readExponent text).2 := by
  cases text with
  | nil => rfl
  | cons c rest =>
    rw [readExponent]
    split
    · have hsplit := readSign_eq ['+', '-'] rest
      have hdigits : (readSign ['+', '-'] rest).2
          = (readSign ['+', '-'] rest).2.takeWhile Char.isDigit
            ++ (readSign ['+', '-'] rest).2.dropWhile Char.isDigit :=
        takeWhile_append_dropWhile.symm
      show c :: rest = c :: ((readSign ['+', '-'] rest).1
        ++ (readSign ['+', '-'] rest).2.takeWhile Char.isDigit
        ++ (readSign ['+', '-'] rest).2.dropWhile Char.isDigit)
      rw [append_assoc, ← hdigits, ← hsplit]
    rfl

lemma eq_of_readWhole {text whole rest : Text} (h : readWhole text = some (whole, rest)) :
    text = whole ++ rest := by
  cases text with
  | nil => cases h
  | cons c =>
    rw [readWhole] at h
    split at h
    · rw [← (Prod.mk.inj (some.inj h)).1, ← (Prod.mk.inj (some.inj h)).2]
      rfl
    split at h
    · rw [← (Prod.mk.inj (some.inj h)).1, ← (Prod.mk.inj (some.inj h)).2]
      exact congrArg (List.cons c) takeWhile_append_dropWhile.symm
    cases h

lemma pays_of_readScalar {text rest : Text} (h : readScalar floats text = some (v, rest)) :
    Pays text rest (weigh price v) ∧ isContainer v = false := by
  unfold readScalar at h
  split at h
  · rename_i r hfound
    obtain ⟨_, hname, hliteral⟩ := exists_of_findSome?_eq_some hfound
    obtain ⟨behind, hbehind, heq⟩ := map_eq_some_iff.1 hliteral
    rw [some.inj h] at heq
    rw [← (Prod.mk.inj heq).1, ← (Prod.mk.inj heq).2]
    have htext := eq_of_literal? hbehind
    -- the names in their order; the floats among them are priced at nothing
    simp only [names, mem_cons, not_mem_nil, or_false] at hname
    rcases hname with rfl | rfl | rfl | rfl | rfl | rfl
    · refine ⟨⟨_, htext, ?_⟩, rfl⟩
      rw [weigh, total_literal price _ (by simp)]
    · refine ⟨⟨_, htext, ?_⟩, rfl⟩
      rw [weigh, total_literal price _ (by simp)]
    · refine ⟨⟨_, htext, ?_⟩, rfl⟩
      rw [weigh, total_literal price _ (by simp)]
    · exact ⟨⟨_, htext, by rw [weigh]; exact Nat.zero_le _⟩, rfl⟩
    · exact ⟨⟨_, htext, by rw [weigh]; exact Nat.zero_le _⟩, rfl⟩
    exact ⟨⟨_, htext, by rw [weigh]; exact Nat.zero_le _⟩, rfl⟩
  simp only [readNumber] at h
  split at h
  · cases h
  rename_i whole behind hwhole
  have heq := Prod.mk.inj (some.inj h)
  rw [← heq.1, ← heq.2]
  obtain ⟨hcontainer, hweigh⟩ := isContainer_numberOf price floats
    ((readSign ['-'] text).1 ++ whole) (readFraction behind).1
    (readExponent (readFraction behind).2).1
  refine ⟨?_, hcontainer⟩
  rw [hweigh]
  refine ⟨(readSign ['-'] text).1 ++ (whole ++ ((readFraction behind).1
    ++ (readExponent (readFraction behind).2).1)), ?_, Nat.zero_le _⟩
  rw [append_assoc, append_assoc, append_assoc, ← readExponent_eq,
    ← readFraction_eq, ← eq_of_readWhole hwhole, ← readSign_eq]

lemma total_comma : total price.of ", ".toList = 1 := by
  have hcomma : price.of ',' = 1 := price.ascii ',' (by decide)
  have hspace : price.of ' ' = 0 := price.ascii ' ' (by decide)
  show total price.of [',', ' '] = 1
  rw [total_cons, total_cons, total_nil, hcomma, hspace]

lemma total_colon : total price.of ": ".toList = 1 := by
  have hcolon : price.of ':' = 1 := price.ascii ':' (by decide)
  have hspace : price.of ' ' = 0 := price.ascii ' ' (by decide)
  show total price.of [':', ' '] = 1
  rw [total_cons, total_cons, total_nil, hcolon, hspace]

def Closes (close : Char) (text rest : Text) (n : Nat) : Prop :=
  ∃ inner, text = inner ++ (close :: rest) ∧ n ≤ total cost inner + 1

lemma Closes.of_pays {close : Char} {text rest : Text} (h : Pays text mid m)
    (h' : Closes close mid rest n) : Closes close text rest (m + n) := by
  obtain ⟨used, rfl, _⟩ := h
  obtain ⟨inner, rfl, _⟩ := h'
  refine ⟨used ++ inner, (append_assoc _ _ _).symm, ?_⟩
  rw [total_append]
  omega

lemma Closes.mono {close : Char} {text rest : Text} (h : Closes close text rest n) (hle : m ≤ n) :
    Closes close text rest m := by
  obtain ⟨inner, heq, hn⟩ := h
  exact ⟨inner, heq, le_trans hle hn⟩

lemma closes_of_behind? {close : Char} {text rest : Text}
    (h : behind? close (JsonCodec.skipBlank text) = some rest) : Closes close text rest 1 := by
  have hpays := Pays.skipBlank text
  rw [eq_of_behind? h] at hpays
  have hclose : Closes close (close :: rest) rest 1 := ⟨[], rfl, le_rfl⟩
  exact Closes.of_pays hpays hclose

def Bracketed (text rest : Text) : Prop :=
  ∃ opening inner close, text = opening :: (inner ++ (close :: rest))
    ∧ isBracket opening = true ∧ isBracket close = true

lemma pays_of_closes {opening close : Char} {text rest : Text}
    (hopening : isBracket opening = true) (hclose : isBracket close = true)
    (h : Closes close text rest n) :
    Pays (opening :: text) rest (1 + n) ∧ Bracketed (opening :: text) rest := by
  have hcost : ∀ c : Char, isBracket c = true → cost c = 1 := by
    intro c hc
    simp only [isBracket, Bool.or_eq_true, beq_iff_eq] at hc
    rcases hc with ((rfl | rfl) | rfl) | rfl <;> decide
  obtain ⟨inner, rfl, _⟩ := h
  refine ⟨⟨opening :: (inner ++ [close]), ?_, ?_⟩, opening, inner, close, rfl, hopening, hclose⟩
  · rw [cons_append, append_assoc, singleton_append]
  rw [total_cons, total_append, total_cons, total_nil, hcost opening hopening, hcost close hclose]
  omega

/-- Values cost no more than the text they are read from, in so many steps; the
text of a container stands between brackets. -/
def ValuesPay (floats : FloatCodec F) (steps : Nat) : Prop :=
  ∀ {text rest : Text} {v : PyJson F}, Spelled price text →
    readValue floats steps text = some (v, rest) →
      Pays text rest (weigh price v) ∧ (isContainer v = true → Bracketed text rest)

def ItemsPay (floats : FloatCodec F) (steps : Nat) : Prop :=
  ∀ {text rest : Text} {items : List (PyJson F)}, Spelled price text →
    readElements floats steps text = some (items, rest) →
      Closes ']' text rest (weighItems price items)

def EntriesPay (floats : FloatCodec F) (steps : Nat) : Prop :=
  ∀ {text rest : Text} {acc entries : Dict String (PyJson F)}, Spelled price text →
    readMembers floats steps acc text = some (entries, rest) →
      ∃ n, Closes '}' text rest n ∧ weighEntries price entries ≤ weighEntries price acc + n

lemma weighItems_pos {floats : FloatCodec F} {steps : Nat} {text rest : Text}
    {items : List (PyJson F)} (hread : readElements floats steps text = some (items, rest)) :
    1 ≤ weighItems price items := by
  cases items with
  | cons =>
    rw [weighItems]
    omega
  | nil =>
    cases steps with
    | zero => rw [readElements] at hread; cases hread
    | succ =>
      rw [readElements] at hread
      split at hread
      · cases hread
      split at hread
      · cases hread
      split at hread
      · cases hread
      obtain ⟨_, -, hr⟩ := map_eq_some_iff.1 hread
      cases hr

variable {price} in
lemma ValuesPay.succ {floats : FloatCodec F} {steps : Nat} (hitems' : ItemsPay price floats steps)
    (hentries' : EntriesPay price floats steps) : ValuesPay price floats (steps + 1) := by
  intro text rest v hspelled h
  cases text with
  | nil => rw [readValue] at h; cases h
  | cons c others =>
    rw [readValue] at h
    split at h
    · -- a string
      rename_i hquote
      obtain ⟨⟨s, behind⟩, hread, heq⟩ := map_eq_some_iff.1 h
      have hv : PyJson.str (String.ofList s) = v := (Prod.mk.inj heq).1
      have hrest : behind = rest := (Prod.mk.inj heq).2
      rw [← hv, ← hrest, hquote]
      rw [hquote] at hspelled
      have hfirst := Pays.cons '"' others
      have hall := hfirst.trans (pays_of_readString price (hspelled.rest hfirst) hread)
      refine ⟨hall.mono ?_, fun hcontainer => by cases hcontainer⟩
      have hone : cost '"' = 1 := by decide
      rw [weigh, String.toList_ofList, total_quoted]
      omega
    split at h
    · -- an array
      rename_i hbracket
      rw [hbracket] at hspelled ⊢
      split at h
      · rename_i after hafter
        have hclose := pays_of_closes (by decide : isBracket '[' = true) (by decide)
          (closes_of_behind? hafter)
        rw [← (Prod.mk.inj (some.inj h)).1, ← (Prod.mk.inj (some.inj h)).2]
        refine ⟨hclose.1.mono ?_, fun _ => hclose.2⟩
        rw [weigh, weighItems]
        omega
      obtain ⟨⟨items, behind⟩, hread, heq⟩ := map_eq_some_iff.1 h
      have hv : PyJson.list items = v := (Prod.mk.inj heq).1
      have hrest : behind = rest := (Prod.mk.inj heq).2
      rw [← hv, ← hrest]
      have hskip := Pays.skipBlank others
      have hinner := hitems'
        ((hspelled.rest (Pays.cons '[' others)).rest hskip) hread
      have hclose := pays_of_closes (by decide : isBracket '[' = true) (by decide)
        (Closes.of_pays hskip hinner)
      have hpos := weighItems_pos price hread
      refine ⟨hclose.1.mono ?_, fun _ => hclose.2⟩
      rw [weigh]
      omega
    split at h
    · -- an object
      rename_i hbrace
      rw [hbrace] at hspelled ⊢
      split at h
      · rename_i after hafter
        have hclose := pays_of_closes (by decide : isBracket '{' = true) (by decide)
          (closes_of_behind? hafter)
        rw [← (Prod.mk.inj (some.inj h)).1, ← (Prod.mk.inj (some.inj h)).2]
        refine ⟨hclose.1.mono ?_, fun _ => hclose.2⟩
        rw [weigh, weighEntries]
        omega
      obtain ⟨⟨entries, behind⟩, hread, heq⟩ := map_eq_some_iff.1 h
      have hv : PyJson.dict entries = v := (Prod.mk.inj heq).1
      have hrest : behind = rest := (Prod.mk.inj heq).2
      rw [← hv, ← hrest]
      have hskip := Pays.skipBlank others
      obtain ⟨_, hinner, hn⟩ := hentries'
        ((hspelled.rest (Pays.cons '{' others)).rest hskip) hread
      have hclose := pays_of_closes (by decide : isBracket '{' = true) (by decide)
        (Closes.of_pays hskip hinner)
      rw [weighEntries, Nat.zero_add] at hn
      refine ⟨?_, fun _ => hclose.2⟩
      -- an object without entries is read above; one here has its brace to pay
      obtain ⟨inner, hinner, _⟩ := Closes.of_pays hskip hinner
      refine ⟨'{' :: (inner ++ ['}']), ?_, ?_⟩
      · rw [hinner, cons_append, append_assoc, singleton_append]
      have hopen : cost '{' = 1 := by decide
      have hshut : cost '}' = 1 := by decide
      rw [weigh, total_cons, total_append, total_cons, total_nil, hopen, hshut]
      omega
    obtain ⟨hpays, hcontainer⟩ := pays_of_readScalar price h
    refine ⟨hpays, fun hyes => ?_⟩
    rw [hcontainer] at hyes
    cases hyes

variable {price} in
lemma ItemsPay.succ (hvalue' : ValuesPay price floats steps)
    (hitems' : ItemsPay price floats steps) : ItemsPay price floats (steps + 1) := by
  intro text rest items hspelled h
  rw [readElements] at h
  split at h
  · cases h
  rename_i x behind hread
  obtain ⟨hpays, -⟩ := hvalue' hspelled hread
  split at h
  · rename_i after hafter
    have hclose := Closes.of_pays hpays (closes_of_behind? hafter)
    rw [← (Prod.mk.inj (some.inj h)).1, ← (Prod.mk.inj (some.inj h)).2]
    apply hclose.mono
    rw [weighItems, weighItems]
  split at h
  · cases h
  rename_i after hafter
  obtain ⟨⟨others, behind'⟩, hothers, heq⟩ := map_eq_some_iff.1 h
  have hitems : x :: others = items := (Prod.mk.inj heq).1
  have hrest : behind' = rest := (Prod.mk.inj heq).2
  have hcomma := ((hpays.trans (Pays.skipBlank behind)).trans (pays_of_behind? hafter)).trans
    (Pays.skipBlank after)
  have hclose := Closes.of_pays hcomma (hitems' (hspelled.rest hcomma) hothers)
  rw [← hitems, ← hrest]
  apply hclose.mono
  have hone : cost ',' = 1 := by decide
  rw [weighItems]
  omega

variable {price} in
lemma EntriesPay.succ (hvalue' : ValuesPay price floats steps)
    (hentries' : EntriesPay price floats steps) : EntriesPay price floats (steps + 1) := by
  intro text rest acc entries hspelled h
  rw [readMembers] at h
  split at h
  · cases h
  rename_i body hbody
  split at h
  · cases h
  rename_i key behind hkey
  split at h
  · cases h
  rename_i value hcolon
  split at h
  · cases h
  rename_i x behind' hread
  have hquote := pays_of_behind? hbody
  have hname := hquote.trans
    (pays_of_readString price (hspelled.rest hquote) hkey)
  have hpoint := ((hname.trans (Pays.skipBlank behind)).trans
    (pays_of_behind? hcolon)).trans (Pays.skipBlank value)
  have hpays := hpoint.trans (hvalue' (hspelled.rest hpoint) hread).1
  have hset := weighEntries_set price acc (String.ofList key) x
  rw [String.toList_ofList, total_quoted] at hset
  have honequote : cost '"' = 1 := by decide
  have honecolon : cost ':' = 1 := by decide
  have honecomma : cost ',' = 1 := by decide
  simp only at h
  split at h
  · rename_i after hafter
    have hclose := Closes.of_pays hpays (closes_of_behind? hafter)
    rw [← (Prod.mk.inj (some.inj h)).1, ← (Prod.mk.inj (some.inj h)).2]
    exact ⟨_, hclose, by omega⟩
  split at h
  · cases h
  rename_i after hafter
  have hcomma := ((hpays.trans (Pays.skipBlank behind')).trans
    (pays_of_behind? hafter)).trans (Pays.skipBlank after)
  obtain ⟨_, hclose, _⟩ := hentries' (hspelled.rest hcomma) h
  refine ⟨_, Closes.of_pays hcomma hclose, ?_⟩
  omega

lemma pays_of_read (floats : FloatCodec F) (steps : Nat) :
    ValuesPay price floats steps ∧ ItemsPay price floats steps ∧ EntriesPay price floats steps := by
  induction steps with
  | zero =>
    refine ⟨fun _ h => ?_, fun _ h => ?_, fun _ h => ?_⟩
    · rw [readValue] at h; cases h
    · rw [readElements] at h; cases h
    rw [readMembers] at h; cases h
  | succ steps ih =>
    obtain ⟨hvalue, hitems, hentries⟩ := ih
    exact ⟨ValuesPay.succ hitems hentries, ItemsPay.succ hvalue hitems,
      EntriesPay.succ hvalue hentries⟩

/-! ## What was written costs what it weighs -/

lemma price_number {text : Text} (h : Number text) : total price.of text = 0 := by
  have hdigits : ∀ digits : Text, (∀ c ∈ digits, c.isDigit = true) → total price.of digits = 0 :=
    fun digits hall => total_eq_zero (fun c hc => price_isDigit price (hall c hc))
  have hascii : ∀ c ∈ ['-', '+', '.', 'e', 'E'], c.toNat < 128 ∧ cost c = 0 := by decide
  have hsign : ∀ c ∈ ['-', '+', '.', 'e', 'E'], price.of c = 0 := fun c hc => by
    rw [price.ascii c (hascii c hc).1, (hascii c hc).2]
  have hminus := hsign '-' (by decide)
  have hplus := hsign '+' (by decide)
  have hpoint := hsign '.' (by decide)
  cases h with
  | @parts sign whole fraction exponent hsigns hwhole hfraction hexponent =>
    have hwhole0 : total price.of whole = 0 := by
      cases hwhole with
      | zero => exact hdigits ['0'] (by decide)
      | digits hc _ hrest => exact hdigits _ (forall_mem_cons.2 ⟨hc, hrest⟩)
    have hfraction0 : total price.of fraction = 0 := by
      cases hfraction with
      | none => rfl
      | digits hd => rw [total_cons, hpoint, hdigits _ hd.digit]
    have hexponent0 : total price.of exponent = 0 := by
      cases hexponent with
      | none => rfl
      | @digits e esign digits he hesign hd =>
        have he0 : price.of e = 0 := by
          cases he with
          | inl he => rw [he]; exact hsign 'e' (by decide)
          | inr he => rw [he]; exact hsign 'E' (by decide)
        have hesign0 : total price.of esign = 0 := by
          rcases hesign with rfl | rfl | rfl
          · rfl
          · rw [total_cons, hplus, total_nil]
          rw [total_cons, hminus, total_nil]
        rw [total_cons, total_append, he0, hesign0, hdigits _ hd.digit]
    have hsigns0 : total price.of sign = 0 := by
      rcases hsigns with rfl | rfl
      · rfl
      rw [total_cons, hminus, total_nil]
    rw [total_append, total_append, total_append, hsigns0, hwhole0, hfraction0, hexponent0]

mutual

lemma weigh_dumps (floats : FloatCodec F) : ∀ v : PyJson F, Lawful floats v →
    weigh price v = total price.of (dumps floats v)
  | .null, _ => by rw [weigh, dumps]
  | .bool true, _ => by rw [weigh, dumps]
  | .bool false, _ => by rw [weigh, dumps]
  | .int i, _ => by rw [weigh, dumps, price_number price (number_intText i)]
  | .float f, h => by
      rw [Lawful] at h
      rw [weigh, dumps, price_number price (floats.text_shape f h).number]
  | .str s, _ => by rw [weigh, dumps]
  | .list [], _ => by
      have hopen : price.of '[' = 1 := price.ascii '[' (by decide)
      have hclose : price.of ']' = 1 := price.ascii ']' (by decide)
      rw [weigh, weighItems, dumps]
      show 1 + max 1 0 = total price.of ['[', ']']
      rw [total_cons, total_cons, total_nil, hopen, hclose]
      rfl
  | .list (x :: rest), h => by
      rw [Lawful, AllLawful] at h
      have hopen : price.of '[' = 1 := price.ascii '[' (by decide)
      have hclose : price.of ']' = 1 := price.ascii ']' (by decide)
      have hx := weigh_dumps floats x h.1
      have hrest := weighItems_dumps floats rest h.2
      rw [weigh, weighItems, dumps, total_cons, total_append, total_append, total_cons, total_nil,
        hopen, hclose]
      omega
  | .dict [], _ => by
      have hopen : price.of '{' = 1 := price.ascii '{' (by decide)
      have hclose : price.of '}' = 1 := price.ascii '}' (by decide)
      rw [weigh, weighEntries, dumps]
      show 1 + max 1 0 = total price.of ['{', '}']
      rw [total_cons, total_cons, total_nil, hopen, hclose]
      rfl
  | .dict ((key, x) :: rest), h => by
      rw [Lawful, LawfulEntries] at h
      have hopen : price.of '{' = 1 := price.ascii '{' (by decide)
      have hclose : price.of '}' = 1 := price.ascii '}' (by decide)
      have hx := weigh_dumps floats x h.2.1
      have hrest := weighEntries_dumps floats rest h.2.2
      have hcolon := total_colon price
      rw [weigh, weighEntries, dumps, total_cons, total_append, total_append, total_append,
        total_append, total_cons, total_nil, hopen, hclose, hcolon]
      omega

lemma weighItems_dumps (floats : FloatCodec F) : ∀ items : List (PyJson F),
    AllLawful floats items → weighItems price items = total price.of (dumpsRest floats items)
  | [], _ => by rw [weighItems, dumpsRest, total_nil]
  | x :: rest, h => by
      rw [AllLawful] at h
      have hx := weigh_dumps floats x h.1
      have hrest := weighItems_dumps floats rest h.2
      have hcomma := total_comma price
      rw [weighItems, dumpsRest, total_append, total_append, hcomma]
      omega

lemma weighEntries_dumps (floats : FloatCodec F) : ∀ entries : List (String × PyJson F),
    LawfulEntries floats entries →
      weighEntries price entries = total price.of (dumpsEntries floats entries)
  | [], _ => by rw [weighEntries, dumpsEntries, total_nil]
  | (key, x) :: rest, h => by
      rw [LawfulEntries] at h
      have hx := weigh_dumps floats x h.1
      have hrest := weighEntries_dumps floats rest h.2
      have hcomma := total_comma price
      have hcolon := total_colon price
      rw [weighEntries, dumpsEntries, total_append, total_append, total_append, total_append,
        hcomma, hcolon]
      omega

end

/-! ## Whole texts -/

lemma weigh_le_of_loads {text : Text} (hspelled : Spelled price text)
    (h : loads floats text = some v) : weigh price v ≤ total cost text := by
  rw [loads] at h
  split at h
  · cases h
  rename_i w rest hread
  split at h
  · have hskip := Pays.skipBlank text
    have hpays := ((pays_of_read price floats _).1 (hspelled.rest hskip) hread).1
    obtain ⟨_, heq, _⟩ := hskip.trans hpays
    rw [← some.inj h, heq, total_append]
    omega
  cases h

def plainPrice : Price where
  of := cost
  ascii _ _ := rfl
  le_two c := Nat.le_trans (cost_le_one c) (by decide)

lemma spelled_plainPrice (text : Text) : Spelled plainPrice text := fun _ _ => le_rfl

lemma bounds_of_loads {text : Text} (h : loads floats text = some v)
    (hcontainer : isContainer v = true) : ∃ before opening inner close after,
      text = before ++ (opening :: (inner ++ (close :: after))) ∧ Blank before ∧ Blank after
        ∧ isBracket opening = true ∧ isBracket close = true := by
  rw [loads] at h
  split at h
  · cases h
  rename_i w rest hread
  split at h
  · rename_i hend
    rw [some.inj h] at hread
    obtain ⟨opening, inner, close, heq, hopening, hclose⟩ :=
      ((pays_of_read plainPrice floats _).1 (spelled_plainPrice _) hread).2 hcontainer
    have hsplit : text = text.takeWhile isBlank ++ skipBlank text :=
      takeWhile_append_dropWhile.symm
    refine ⟨text.takeWhile isBlank, opening, inner, close, rest, ?_, ?_, ?_, hopening, hclose⟩
    · rw [← heq]
      exact hsplit
    · exact fun c hc => mem_takeWhile_imp hc
    have hnil : rest.dropWhile isBlank = [] := isEmpty_iff.1 hend
    exact fun c hc => dropWhile_eq_nil_iff.1 hnil c hc
  cases h

end
end DeterminFlow.Library.JsonCodec
