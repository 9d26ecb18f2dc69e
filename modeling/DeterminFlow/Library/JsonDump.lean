/-
  Library.JsonDump
  **WRITING JSON.**

  `json.dumps(value, ensure_ascii=False)` with the separators `", "` and `": "`.
  How a float is written and read is a parameter with its laws.
-/
import DeterminFlow.Library.JsonText
import DeterminFlow.Library.PyJson

namespace DeterminFlow.Library.JsonCodec

open JsonText List Option

/-! ## Numbers -/

/-- The text of a float: a number with a fraction or an exponent. -/
inductive FloatText : Text → Prop where
  | parts {sign whole fraction exponent : Text} : (sign = [] ∨ sign = ['-']) → Whole whole →
      Fraction fraction → Exponent exponent → (fraction ≠ [] ∨ exponent ≠ []) →
      FloatText (sign ++ (whole ++ (fraction ++ exponent)))

/-- How floats are written and read; a finite float is read back. -/
structure FloatCodec (F : Type) where
  /-- `float.__repr__` -/
  text : F → Text
  /-- `float(token)` -/
  ofText : Text → F
  nan : F
  inf : F
  negInf : F
  finite : F → Bool
  text_shape : ∀ f, finite f = true → FloatText (text f)
  ofText_text : ∀ f, finite f = true → ofText (text f) = f

/-- `int.__repr__` -/
def intText : Int → Text
  | .ofNat n => Nat.toDigits 10 n
  | .negSucc n => '-' :: Nat.toDigits 10 (n + 1)

lemma isDigit_of_mem_toDigits {n : Nat} : ∀ c ∈ Nat.toDigits 10 n, c.isDigit = true :=
  fun _ hc => Nat.isDigit_of_mem_toDigits (by decide) (by decide) hc

lemma head_toDigits {n : Nat} (hpos : 0 < n) : ∀ c ∈ (Nat.toDigits 10 n).head?, c ≠ '0' := by
  induction n using Nat.strongRecOn with
  | _ n ih =>
    by_cases hsmall : n < 10
    · intro c hc
      rw [Nat.toDigits_of_lt_base hsmall, head?_cons, mem_some_iff] at hc
      have hdigit : ∀ d : Fin 10, 0 < d.val → Nat.digitChar d.val ≠ '0' := by decide
      rw [← hc]
      exact hdigit ⟨n, hsmall⟩ hpos
    have hsplit := Nat.toDigits_append_toDigits (b := 10) (n := n / 10) (d := n % 10) (by decide)
      (by omega) (by omega)
    have hn : 10 * (n / 10) + n % 10 = n := Nat.div_add_mod n 10
    rw [hn] at hsplit
    rw [← hsplit, head?_append_of_ne_nil _ Nat.toDigits_ne_nil]
    exact ih (n / 10) (by omega) (by omega)

lemma whole_toDigits (n : Nat) : Whole (Nat.toDigits 10 n) := by
  by_cases hzero : n = 0
  · rw [hzero]
    exact .zero
  have hhead := head_toDigits (Nat.pos_of_ne_zero hzero)
  have hall := @isDigit_of_mem_toDigits n
  cases hdigits : Nat.toDigits 10 n with
  | nil => exact absurd hdigits Nat.toDigits_ne_nil
  | cons c =>
    rw [hdigits] at hhead hall
    exact .digits (hall c mem_cons_self) (hhead c rfl)
      (fun d hd => hall d (mem_cons_of_mem c hd))

lemma number_intText (i : Int) : Number (intText i) := by
  have hparts : ∀ (sign : Text) (n : Nat), sign = [] ∨ sign = ['-'] →
      Number (sign ++ Nat.toDigits 10 n) := by
    intro sign n hsign
    have hnumber := Number.parts hsign (whole_toDigits n) .none .none
    rw [append_nil, append_nil] at hnumber
    exact hnumber
  cases i with
  | ofNat n => exact hparts [] n (.inl rfl)
  | negSucc n => exact hparts ['-'] (n + 1) (.inr rfl)

lemma FloatText.number {text : Text} (h : FloatText text) : Number text := by
  cases h with
  | parts hsign hwhole hfraction hexponent => exact .parts hsign hwhole hfraction hexponent

/-! ## Strings -/

def escapeChar (c : Char) : Text :=
  if c = '"' then ['\\', '"']
  else if c = '\\' then ['\\', '\\']
  else if c = '\n' then ['\\', 'n']
  else if c = '\r' then ['\\', 'r']
  else if c = '\t' then ['\\', 't']
  else if c = '\x08' then ['\\', 'b']
  else if c = '\x0c' then ['\\', 'f']
  else if c.toNat < 0x20 then
    ['\\', 'u', '0', '0', Nat.digitChar (c.toNat / 16), Nat.digitChar (c.toNat % 16)]
  else [c]

def stringText (text : Text) : Text := quoted (text.flatMap escapeChar)

lemma isHex_digitChar : ∀ d : Fin 16, isHex (Nat.digitChar d.val) = true := by decide

lemma escapeChar_cases (c : Char) : (∃ letter ∈ escapeLetters, escapeChar c = ['\\', letter])
      ∨ (c.toNat < 0x20 ∧ escapeChar c
          = ['\\', 'u', '0', '0', Nat.digitChar (c.toNat / 16), Nat.digitChar (c.toNat % 16)])
      ∨ (isPlain c = true ∧ escapeChar c = [c]) := by
  unfold escapeChar
  split
  · exact .inl ⟨'"', by decide, rfl⟩
  split
  · exact .inl ⟨'\\', by decide, rfl⟩
  split
  · exact .inl ⟨'n', by decide, rfl⟩
  split
  · exact .inl ⟨'r', by decide, rfl⟩
  split
  · exact .inl ⟨'t', by decide, rfl⟩
  split
  · exact .inl ⟨'b', by decide, rfl⟩
  split
  · exact .inl ⟨'f', by decide, rfl⟩
  split
  · exact .inr (.inl ⟨‹_›, rfl⟩)
  refine .inr (.inr ⟨?_, rfl⟩)
  simp only [isPlain, Bool.and_eq_true, bne_iff_ne, decide_eq_true_eq]
  exact ⟨⟨‹_›, ‹_›⟩, by omega⟩

lemma body_escape (text : Text) : Body (text.flatMap escapeChar) := by
  induction text with
  | nil => exact .nil
  | cons c rest ih =>
    rw [flatMap_cons]
    rcases escapeChar_cases c with ⟨_, hletter, heq⟩ | ⟨_, heq⟩ | ⟨hplain, heq⟩
    · rw [heq]
      exact .escape hletter ih
    · rw [heq]
      exact .unicode rfl rfl (isHex_digitChar ⟨c.toNat / 16, by omega⟩)
        (isHex_digitChar ⟨c.toNat % 16, by omega⟩) ih
    rw [heq]
    exact .plain hplain ih

/-! ## Values -/

section
variable {F : Type}

mutual

/-- `json.dumps(value, ensure_ascii=False)` -/
def dumps (floats : FloatCodec F) : PyJson F → Text
  | .null => "null".toList
  | .bool true => "true".toList
  | .bool false => "false".toList
  | .int i => intText i
  | .float f => floats.text f
  | .str s => stringText s.toList
  | .list [] => "[]".toList
  | .list (x :: rest) => '[' :: (dumps floats x ++ (dumpsRest floats rest ++ [']']))
  | .dict [] => "\x7b\x7d".toList
  | .dict ((key, x) :: rest) =>
    '{' :: (stringText key.toList ++ (": ".toList ++ (dumps floats x
      ++ (dumpsEntries floats rest ++ ['}']))))

def dumpsRest (floats : FloatCodec F) : List (PyJson F) → Text
  | [] => []
  | x :: rest => ", ".toList ++ (dumps floats x ++ dumpsRest floats rest)

def dumpsEntries (floats : FloatCodec F) : List (String × PyJson F) → Text
  | [] => []
  | (key, x) :: rest =>
    ", ".toList ++ (stringText key.toList ++ (": ".toList ++ (dumps floats x
      ++ dumpsEntries floats rest)))

end

mutual

def Lawful (floats : FloatCodec F) : PyJson F → Prop
  | .float f => floats.finite f = true
  | .list items => AllLawful floats items
  | .dict entries => (entries.map (·.1)).Nodup ∧ LawfulEntries floats entries
  | .null | .bool _ | .int _ | .str _ => True

def AllLawful (floats : FloatCodec F) : List (PyJson F) → Prop
  | [] => True
  | x :: rest => Lawful floats x ∧ AllLawful floats rest

def LawfulEntries (floats : FloatCodec F) : List (String × PyJson F) → Prop
  | [] => True
  | (_, x) :: rest => Lawful floats x ∧ LawfulEntries floats rest

end

lemma blank_nil : Blank [] := nofun

lemma blank_space : Blank [' '] := fun _ hc => by rw [mem_singleton.1 hc]; rfl

lemma elements_append {value rest : Text} (hvalue : Json .value value)
    (hrest : rest = [] ∨ ∃ others, rest = ',' :: ' ' :: others ∧ Json .elements others) :
    Json .elements (value ++ rest) := by
  cases hrest with
  | inl hnil =>
    rw [hnil]
    exact .element blank_nil hvalue blank_nil
  | inr hmore =>
    obtain ⟨others, heq, hothers⟩ := hmore
    rw [heq]
    have hspaced : Json .elements (' ' :: others) := by
      cases hothers with
      | element hbefore hvalue hafter =>
        exact .element (forall_mem_cons.2 ⟨rfl, hbefore⟩) hvalue hafter
      | elements hbefore hvalue hafter hothers =>
        exact .elements (forall_mem_cons.2 ⟨rfl, hbefore⟩) hvalue hafter hothers
    exact .elements blank_nil hvalue blank_nil hspaced

lemma members_append {key value rest : Text} (hkey : Body key) (hvalue : Json .value value)
    (hrest : rest = [] ∨ ∃ others, rest = ',' :: ' ' :: others ∧ Json .members others) :
    Json .members (quoted key ++ (": ".toList ++ (value ++ rest))) := by
  cases hrest with
  | inl hnil =>
    rw [hnil]
    exact .member blank_nil hkey blank_nil blank_space hvalue blank_nil
  | inr hmore =>
    obtain ⟨others, heq, hothers⟩ := hmore
    rw [heq]
    have hspaced : Json .members (' ' :: others) := by
      cases hothers with
      | member hbefore hkey hcolon hspace hvalue hafter =>
        exact .member (forall_mem_cons.2 ⟨rfl, hbefore⟩) hkey hcolon hspace hvalue hafter
      | members hbefore hkey hcolon hspace hvalue hafter hothers =>
        exact .members (forall_mem_cons.2 ⟨rfl, hbefore⟩) hkey hcolon hspace hvalue hafter
          hothers
    exact .members blank_nil hkey blank_nil blank_space hvalue blank_nil hspaced

mutual

lemma dumps_json (floats : FloatCodec F) :
    ∀ v : PyJson F, Lawful floats v → Json .value (dumps floats v)
  | .null, _ => by rw [dumps]; exact .constant .null
  | .bool true, _ => by rw [dumps]; exact .constant .true
  | .bool false, _ => by rw [dumps]; exact .constant .false
  | .int i, _ => by rw [dumps]; exact .number (number_intText i)
  | .float f, h => by
      rw [Lawful] at h
      rw [dumps]
      exact .number (floats.text_shape f h).number
  | .str s, _ => by rw [dumps]; exact .string (body_escape s.toList)
  | .list [], _ => by rw [dumps]; exact .emptyArray blank_nil
  | .list (x :: rest), h => by
      rw [Lawful, AllLawful] at h
      rw [dumps, ← append_assoc]
      exact .array (elements_append (dumps_json floats x h.1) (dumpsRest_json floats rest h.2))
  | .dict [], _ => by rw [dumps]; exact .emptyObject blank_nil
  | .dict ((key, x) :: rest), h => by
      rw [Lawful, LawfulEntries] at h
      have hmembers := members_append (body_escape key.toList) (dumps_json floats x h.2.1)
        (dumpsEntries_json floats rest h.2.2)
      have hobject := Json.object hmembers
      simp only [append_assoc] at hobject
      rw [dumps]
      exact hobject

lemma dumpsRest_json (floats : FloatCodec F) :
    ∀ items : List (PyJson F), AllLawful floats items → dumpsRest floats items = []
      ∨ ∃ others, dumpsRest floats items = ',' :: ' ' :: others ∧ Json .elements others
  | [], _ => by rw [dumpsRest]; exact .inl rfl
  | x :: rest, h => by
      rw [AllLawful] at h
      rw [dumpsRest]
      exact .inr ⟨dumps floats x ++ dumpsRest floats rest, rfl,
        elements_append (dumps_json floats x h.1) (dumpsRest_json floats rest h.2)⟩

lemma dumpsEntries_json (floats : FloatCodec F) :
    ∀ entries : List (String × PyJson F), LawfulEntries floats entries →
      dumpsEntries floats entries = []
      ∨ ∃ others, dumpsEntries floats entries = ',' :: ' ' :: others ∧ Json .members others
  | [], _ => by rw [dumpsEntries]; exact .inl rfl
  | (key, x) :: rest, h => by
      rw [LawfulEntries] at h
      rw [dumpsEntries]
      exact .inr ⟨stringText key.toList ++ (": ".toList ++ (dumps floats x
          ++ dumpsEntries floats rest)), rfl,
        members_append (body_escape key.toList) (dumps_json floats x h.1)
          (dumpsEntries_json floats rest h.2)⟩

end

def isContainer : PyJson F → Bool
  | .list _ | .dict _ => true
  | _ => false

lemma dumps_container (floats : FloatCodec F) {v : PyJson F} (hlawful : Lawful floats v)
    (hcontainer : isContainer v = true) : Container (dumps floats v) := by
  cases v with
  | list items =>
    cases items with
    | nil =>
      rw [dumps]
      exact .emptyArray blank_nil
    | cons x rest =>
      rw [Lawful, AllLawful] at hlawful
      rw [dumps, ← append_assoc]
      exact .array (elements_append (dumps_json floats x hlawful.1)
        (dumpsRest_json floats rest hlawful.2))
  | dict entries =>
    cases entries with
    | nil =>
      rw [dumps]
      exact .emptyObject blank_nil
    | cons entry rest =>
      rw [Lawful, LawfulEntries] at hlawful
      have hobject := Container.object (members_append (body_escape entry.1.toList)
        (dumps_json floats entry.2 hlawful.2.1) (dumpsEntries_json floats rest hlawful.2.2))
      simp only [append_assoc] at hobject
      rw [dumps]
      exact hobject
  | _ => cases hcontainer

end
end DeterminFlow.Library.JsonCodec
