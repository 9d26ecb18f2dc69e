/-
  Coding.FileEdits
  **REPLACING TEXT IN A FILE.**

  `replace_in_file` and `apply_diff` read a file with the line ends translated
  and the undecodable bytes replaced, edit the text, and write it back whole, as
  it is.  Where the edited text keeps a part of the file, that part has its old
  bytes only if reading it has lost nothing.
-/
import DeterminFlow.Library.PyText
import DeterminFlow.Library.TextFile

namespace DeterminFlow.Coding

open Library.PyText Library.TextFile List Option

/-! ## Texts -/

abbrev Text : Type := List Char

/-- `text.find(needle)`. -/
def findFirst (needle : Text) : Text → Option Nat
  | [] => if needle.isPrefixOf [] then some 0 else none
  | c :: rest =>
    if needle.isPrefixOf (c :: rest) then some 0 else (findFirst needle rest).map (· + 1)

def countFrom (needle : Text) : Nat → Text → Nat
  | 0, _ => 0
  | _ + 1, [] => 0
  | fuel + 1, c :: rest =>
    if needle.isPrefixOf (c :: rest) then
      countFrom needle fuel ((c :: rest).drop needle.length) + 1
    else countFrom needle fuel rest

/-- `text.count(needle)`. -/
def count (needle text : Text) : Nat :=
  if needle = [] then text.length + 1 else countFrom needle text.length text

/-- `text.replace("\r\n", "\n")`. -/
def crlfToLf : Text → Text
  | '\r' :: '\n' :: rest => '\n' :: crlfToLf rest
  | c :: rest => c :: crlfToLf rest
  | [] => []

/-- The replacement of a range of a text. -/
structure Edit where
  start : Nat
  length : Nat
  text : Text
  deriving DecidableEq

def Edit.apply (edit : Edit) (text : Text) : Text :=
  text.take edit.start ++ edit.text ++ text.drop (edit.start + edit.length)

/-- The edit of `text.replace(needle, new, 1)`. -/
def firstEdit (needle new text : Text) : Option Edit :=
  (findFirst needle text).map (fun start => { start := start, length := needle.length, text := new })

/-! ## `replace_in_file` -/

def replacePlan (original oldStr newStr : Text) : Except String (Text × Edit) :=
  match firstEdit oldStr newStr original with
  | some edit =>
    if 1 < count oldStr original then
      .error ("找到 " ++ toString (count oldStr original) ++ " 处匹配，old_str 不唯一，请提供更多上下文使其唯一")
    else .ok (original, edit)
  | none =>
    match firstEdit (crlfToLf oldStr) (crlfToLf newStr) (crlfToLf original) with
    | none => .error "未找到要替换的文本"
    | some edit =>
      if 1 < count (crlfToLf oldStr) (crlfToLf original) then
        .error ("找到 " ++ toString (count (crlfToLf oldStr) (crlfToLf original))
          ++ " 处匹配（归一化后），old_str 不唯一，请提供更多上下文使其唯一")
      else .ok (crlfToLf original, edit)

/-- `_replace_in_file` on the bytes of the file. -/
def replaceInFile (file : List UInt8) (oldStr newStr : Text) : Except String (List UInt8) :=
  (replacePlan (readText file) oldStr newStr).map (fun plan => encode (plan.2.apply plan.1))

/-! ## `apply_diff` -/

/-- An item of the two patterns. -/
inductive Item where
  | lit (c : Char)
  /-- `\s*` or `\s+`, by the least number of spaces. -/
  | spaces (least : Nat)
  /-- `\n?` -/
  | optLf
  /-- `(.*?)`, where the dot is any character. -/
  | lazyAny
  deriving DecidableEq

/-- A match at the beginning of a text, the first one in the order in which the
choices are tried: what is captured, and the length. -/
def matchItems : List Item → Text → Option (List Text × Nat)
  | [], _ => some ([], 0)
  | .lit _ :: _, [] => none
  | .lit c :: items, d :: text =>
    if c = d then (matchItems items text).map (fun m => (m.1, m.2 + 1)) else none
  | .spaces least :: items, text =>
    let run := (text.takeWhile isSpace).length
    ((List.range (run + 1 - least)).map (run - ·)).findSome? (fun k =>
      (matchItems items (text.drop k)).map (fun m => (m.1, m.2 + k)))
  | .optLf :: items, text =>
    let without := matchItems items text
    if text.head? = some '\n' then
      ((matchItems items text.tail).map (fun m => (m.1, m.2 + 1))).orElse (fun _ => without)
    else without
  | .lazyAny :: items, text =>
    (List.range (text.length + 1)).findSome? (fun k =>
      (matchItems items (text.drop k)).map (fun m => (text.take k :: m.1, m.2 + k)))

/-- `finditer`, what is captured, as far as the fuel goes. -/
def findIter (items : List Item) : Nat → Text → List (List Text)
  | 0, _ => []
  | fuel + 1, text =>
    match matchItems items text with
    | some (captured, length) => captured :: findIter items fuel (text.drop (max length 1))
    | none =>
      match text with
      | [] => []
      | _ :: rest => findIter items fuel rest

/-- `search`: where the leftmost match is, and its length. -/
def search (items : List Item) : Text → Option (Nat × Nat)
  | [] => (matchItems items []).map (fun m => (0, m.2))
  | c :: rest =>
    match matchItems items (c :: rest) with
    | some m => some (0, m.2)
    | none => (search items rest).map (fun found => (found.1 + 1, found.2))

def literal (text : String) : List Item := text.toList.map .lit

def searchReplacePattern : List Item :=
  literal "<<<<<<< SEARCH" ++ [.spaces 0, .lit '\n', .lazyAny, .optLf] ++ literal "======="
    ++ [.spaces 0, .lit '\n', .lazyAny, .optLf] ++ literal ">>>>>>> REPLACE"

structure Block where
  searchText : Text
  replaceText : Text
  deriving DecidableEq

def blocksOf (diff : Text) : List Block :=
  (findIter searchReplacePattern (diff.length + 1) diff).map (fun captured =>
    { searchText := captured.head?.getD [], replaceText := (captured.drop 1).head?.getD [] })

def markSpaces : Text → Text
  | [] => []
  | c :: rest =>
    if isSpace c then
      if rest.head?.any isSpace then markSpaces rest
      else '\x00' :: 'W' :: 'S' :: '\x00' :: markSpaces rest
    else c :: markSpaces rest

/-- The placeholders, and what looks like one, as `\s+`. -/
def fuzzyPattern : Text → List Item
  | '\x00' :: 'W' :: 'S' :: '\x00' :: rest => .spaces 1 :: fuzzyPattern rest
  | c :: rest => .lit c :: fuzzyPattern rest
  | [] => []

structure BlockInfo where
  index : Nat
  success : Bool
  message : String
  deriving DecidableEq

def blockLabel (index : Nat) : String := "第 " ++ toString (index + 1) ++ " 块："

def blockStep (index : Nat) (content : Text) (block : Block) : BlockInfo × Option Edit :=
  let stripped := strip block.searchText
  let fail (message : String) : BlockInfo × Option Edit :=
    ({ index := index, success := false, message := blockLabel index ++ message }, none)
  let done (message : String) (edit : Edit) : BlockInfo × Option Edit :=
    ({ index := index, success := true, message := blockLabel index ++ message }, some edit)
  let missing := fail ("未找到 SEARCH 文本。搜索起始内容: '"
    ++ String.ofList ((stripped.takeWhile (· ≠ '\n')).take 80) ++ "...'。请使用 read_file 查看当前文件内容后重试。")
  if stripped = [] then fail "SEARCH 部分为空，已跳过"
  else
    match firstEdit block.searchText block.replaceText content with
    | some edit =>
      if 1 < count block.searchText content then
        fail ("SEARCH 文本匹配到 " ++ toString (count block.searchText content) ++ " 处，请提供更多上下文使其唯一")
      else done "已应用" edit
    | none =>
      let replaceStripped := strip block.replaceText
      match firstEdit stripped
          (if replaceStripped = [] then block.replaceText else replaceStripped) content with
      | some edit =>
        if 1 < count stripped content then
          fail ("经过宽松匹配后 SEARCH 文本仍匹配到 " ++ toString (count stripped content) ++ " 处，请提供更多上下文")
        else done "已应用（宽松匹配）" edit
      | none =>
        match search (fuzzyPattern (markSpaces block.searchText)) content with
        | none => missing
        | some (start, length) =>
          match firstEdit ((content.drop start).take length) block.replaceText content with
          | none => missing
          | some edit => done "已应用（空白宽松匹配）" edit

def runBlocks : Nat → Text → List Block → List (BlockInfo × Option Edit)
  | _, _, [] => []
  | index, content, block :: rest =>
    let result := blockStep index content block
    result :: runBlocks (index + 1)
      (match result.2 with
        | none => content
        | some edit => edit.apply content) rest

def diffEdits (content diff : Text) : List Edit :=
  (runBlocks 0 content (blocksOf diff)).filterMap (·.2)

/-- The answer of `apply_diff`, and the bytes it writes, if any. -/
structure DiffResult where
  blocks : List BlockInfo
  total : Nat
  succeeded : Nat
  failed : Nat
  written : Option (List UInt8)
  deriving DecidableEq

/-- `_apply_diff` on the bytes of the file. -/
def applyDiff (file : List UInt8) (diff : Text) : Except String DiffResult :=
  if blocksOf diff = [] then
    .error ("未找到有效的 SEARCH/REPLACE 块。请使用格式: "
      ++ "<<<<<<< SEARCH\\n原始代码\\n=======\\n新代码\\n>>>>>>> REPLACE")
  else
    let infos := (runBlocks 0 (readText file) (blocksOf diff)).map (·.1)
    let edits := diffEdits (readText file) diff
    .ok {
      blocks := infos
      total := infos.length
      succeeded := infos.countP (·.success)
      failed := infos.length - infos.countP (·.success)
      written :=
        if edits = [] then none
        else some (encode (edits.foldl (fun text edit => edit.apply text) (readText file))) }

/-! ## What is kept of the file -/

/-- A part of the edited text: a run of the file, or text that an edit put
there. -/
inductive Part where
  | kept (ps : List Piece)
  | put (text : Text)
  deriving DecidableEq

def Part.text : Part → Text
  | .kept ps => ps.map Piece.text
  | .put text => text

def Part.split (n : Nat) : Part → Part × Part
  | .kept ps => (.kept (ps.take n), .kept (ps.drop n))
  | .put text => (.put (text.take n), .put (text.drop n))

def textOf (parts : List Part) : Text := parts.flatMap Part.text

def splitParts : Nat → List Part → List Part × List Part
  | _, [] => ([], [])
  | n, part :: rest =>
    if n < part.text.length then ([(part.split n).1], (part.split n).2 :: rest)
    else
      let others := splitParts (n - part.text.length) rest
      (part :: others.1, others.2)

def Edit.on (edit : Edit) (parts : List Part) : List Part :=
  let front := splitParts edit.start parts
  front.1 ++ .put edit.text :: (splitParts edit.length front.2).2

def replaced (file : List UInt8) (edits : List Edit) : List Part :=
  edits.foldl (fun parts edit => edit.on parts) [.kept (pieces file)]

/-- **The bytes outside the replaced regions stay**: every run that is kept is
written as it stood in the file. -/
def KeepsBytes (parts : List Part) : Prop :=
  ∀ ps, Part.kept ps ∈ parts → encode (ps.map Piece.text) = bytesOf ps

def NothingLost (parts : List Part) : Prop :=
  ∀ ps, Part.kept ps ∈ parts → ∀ piece ∈ ps, piece.IsChar

lemma Part.split_text (n : Nat) (part : Part) :
    (part.split n).1.text = part.text.take n ∧ (part.split n).2.text = part.text.drop n := by
  cases part with
  | kept => exact ⟨map_take, map_drop⟩
  | put => exact ⟨rfl, rfl⟩

lemma splitParts_text (n : Nat) (parts : List Part) :
    textOf (splitParts n parts).1 = (textOf parts).take n
      ∧ textOf (splitParts n parts).2 = (textOf parts).drop n := by
  induction parts generalizing n with
  | nil => exact ⟨take_nil.symm, drop_nil.symm⟩
  | cons part rest ih =>
    have hcons : textOf (part :: rest) = part.text ++ textOf rest := rfl
    rw [splitParts, hcons]
    split
    case isTrue hin =>
      obtain ⟨hfront, hback⟩ := part.split_text n
      constructor
      · show (part.split n).1.text ++ [] = _
        rw [append_nil, hfront, take_append_of_le_length (Nat.le_of_lt hin)]
      show (part.split n).2.text ++ textOf rest = _
      rw [hback, drop_append_of_le_length (Nat.le_of_lt hin)]
    case isFalse hout =>
      obtain ⟨hfront, hback⟩ := ih (n - part.text.length)
      constructor
      · show part.text ++ textOf (splitParts (n - part.text.length) rest).1 = _
        rw [hfront, take_append, take_of_length_le (Nat.le_of_not_lt hout)]
      show textOf (splitParts (n - part.text.length) rest).2 = _
      rw [hback, drop_append, drop_eq_nil_of_le (Nat.le_of_not_lt hout), nil_append]

lemma textOf_on (edit : Edit) (parts : List Part) :
    textOf (edit.on parts) = edit.apply (textOf parts) := by
  obtain ⟨hfront, hback⟩ := splitParts_text edit.start parts
  have hrest := (splitParts_text edit.length (splitParts edit.start parts).2).2
  rw [hback, drop_drop] at hrest
  show textOf ((splitParts edit.start parts).1
    ++ .put edit.text :: (splitParts edit.length (splitParts edit.start parts).2).2) = _
  rw [textOf, flatMap_append, flatMap_cons]
  show textOf _ ++ (edit.text ++ textOf _) = _
  rw [hfront, hrest, Edit.apply, append_assoc]

variable (file : List UInt8) (edits : List Edit)

lemma textOf_replaced : textOf (replaced file edits)
      = edits.foldl (fun text edit => edit.apply text) (readText file) := by
  have hfold : ∀ (edits : List Edit) (parts : List Part),
      textOf (edits.foldl (fun parts edit => edit.on parts) parts)
        = edits.foldl (fun text edit => edit.apply text) (textOf parts) := by
    intro edits
    induction edits with
    | nil => exact fun _ => rfl
    | cons edit rest ih =>
      intro parts
      rw [foldl_cons, foldl_cons, ih, textOf_on]
  rw [replaced, hfold]
  show List.foldl _ (readText file ++ []) edits = _
  rw [append_nil]

def Inside (file : List UInt8) (parts : List Part) : Prop :=
  ∀ ps, Part.kept ps ∈ parts → ps <:+: pieces file

lemma splitParts_inside {file : List UInt8} {parts : List Part} (h : Inside file parts) (n : Nat) :
    Inside file (splitParts n parts).1 ∧ Inside file (splitParts n parts).2 := by
  induction parts generalizing n with
  | nil => exact ⟨h, h⟩
  | cons part rest ih =>
    have hrest : Inside file rest := fun ps hps => h ps (mem_cons_of_mem part hps)
    rw [splitParts]
    split
    case isTrue =>
      cases part with
      | put =>
        constructor
        · intro ps hps
          cases mem_singleton.1 hps
        intro ps hps
        rcases mem_cons.1 hps with heq | hps
        · cases heq
        exact hrest ps hps
      | kept qs =>
        have hqs := h qs mem_cons_self
        constructor
        · intro ps hps
          obtain rfl := Part.kept.inj (mem_singleton.1 hps)
          exact ( take_prefix n qs).isInfix.trans hqs
        intro ps hps
        rcases mem_cons.1 hps with heq | hps
        · obtain rfl := Part.kept.inj heq
          exact (drop_suffix n qs).isInfix.trans hqs
        exact hrest ps hps
    case isFalse =>
      obtain ⟨hfront, hback⟩ := ih hrest (n - part.text.length)
      refine ⟨fun ps hps => ?_, hback⟩
      rcases mem_cons.1 hps with rfl | hps
      · exact h ps mem_cons_self
      exact hfront ps hps

lemma replaced_infix : Inside file (replaced file edits) := by
  have hfold : ∀ (edits : List Edit) (parts : List Part), Inside file parts →
      Inside file (edits.foldl (fun parts edit => edit.on parts) parts) := by
    intro edits
    induction edits with
    | nil => exact fun _ h => h
    | cons edit rest ih =>
      intro parts h
      apply ih
      obtain ⟨hfront, hback⟩ := splitParts_inside h edit.start
      intro ps hps
      rcases mem_append.1 hps with hps | hps
      · exact hfront ps hps
      rcases mem_cons.1 hps with heq | hps
      · cases heq
      exact (splitParts_inside hback edit.length).2 ps hps
  apply hfold
  intro ps hps
  obtain rfl := Part.kept.inj (mem_singleton.1 hps)
  exact infix_refl _

lemma keepsBytes_iff : KeepsBytes (replaced file edits) ↔ NothingLost (replaced file edits) := by
  have hinside := replaced_infix file edits
  constructor
  · exact fun h ps hps => (encode_eq_bytes_iff (hinside ps hps)).1 (h ps hps)
  exact fun h ps hps => (encode_eq_bytes_iff (hinside ps hps)).2 (h ps hps)

/-! ## The text has no CR -/

theorem crlfToLf_of_notMem {text : Text} (h : '\r' ∉ text) : crlfToLf text = text := by
  induction text with
  | nil => rfl
  | cons c rest ih =>
    rw [mem_cons, not_or] at h
    rw [crlfToLf, ih h.2]
    rintro rest' rfl
    exact absurd rfl h.1

lemma text_ne_cr {fuel : Nat} {file : List UInt8} {piece : Piece}
    (h : piece ∈ piecesFrom fuel file) : piece.text ≠ '\r' := by
  induction fuel generalizing file with
  | zero => cases h
  | succ fuel ih =>
    cases file with
    | nil => cases h
    | cons lead rest =>
      rcases mem_cons.1 h with rfl | h
      · rw [firstPiece]
        split
        case isTrue =>
          show '\n' ≠ '\r'
          decide
        case isFalse hlead =>
          split
          case h_1 c hc =>
            rintro rfl
            have hpre := decodeFirst?_eq_some.1 hc
            exact hlead (cons_prefix_cons.1 hpre).1.symm
          case h_2 =>
            show '\uFFFD' ≠ '\r'
            decide
      exact ih h

lemma readText_noCr : '\r' ∉ readText file := by
  intro h
  obtain ⟨_, hpiece, htext⟩ := mem_map.1 h
  exact text_ne_cr hpiece htext

lemma replacePlan_text {file : List UInt8} {oldStr newStr text : Text} {edit : Edit}
    (h : replacePlan (readText file) oldStr newStr = .ok (text, edit)) : text = readText file := by
  rw [replacePlan] at h
  split at h
  · split at h
    · cases h
    exact (Prod.mk.inj (Except.ok.inj h)).1.symm
  split at h
  · cases h
  split at h
  · cases h
  rw [crlfToLf_of_notMem (readText_noCr file)] at h
  exact (Prod.mk.inj (Except.ok.inj h)).1.symm

/-- **Exactly when the bytes outside the replaced regions stay.**  A call of
`replace_in_file` that succeeds, and a call of `apply_diff` that writes, write
the text of the file with its replaced regions; the bytes of what is kept stay
exactly if there is no CR and there are no undecodable bytes in it. -/
theorem edits_keepBytes (file : List UInt8) :
    (∀ oldStr newStr out, replaceInFile file oldStr newStr = .ok out →
      ∃ text edit, replacePlan (readText file) oldStr newStr = .ok (text, edit)
        ∧ out = encode (textOf (replaced file [edit]))
        ∧ (KeepsBytes (replaced file [edit]) ↔ NothingLost (replaced file [edit])))
    ∧ (∀ diff result out, applyDiff file diff = .ok result → result.written = some out →
        out = encode (textOf (replaced file (diffEdits (readText file) diff)))
        ∧ (KeepsBytes (replaced file (diffEdits (readText file) diff))
          ↔ NothingLost (replaced file (diffEdits (readText file) diff)))) := by
  constructor
  · intro oldStr newStr out h
    rw [replaceInFile] at h
    cases hplan : replacePlan (readText file) oldStr newStr with
    | error =>
      rw [hplan] at h
      cases h
    | ok plan =>
      obtain ⟨text, edit⟩ := plan
      rw [hplan] at h
      obtain rfl := Except.ok.inj h
      refine ⟨text, edit, rfl, ?_, keepsBytes_iff file [edit]⟩
      rw [textOf_replaced, replacePlan_text hplan]
      rfl
  intro diff result out h hout
  refine ⟨?_, keepsBytes_iff file _⟩
  rw [textOf_replaced]
  rw [applyDiff] at h
  split at h
  · cases h
  obtain rfl := Except.ok.inj h
  simp only at hout
  split at hout
  · cases hout
  exact (some.inj hout).symm

/-- A block that puts `c` in the place of `b`. -/
def cForB : Text := "<<<<<<< SEARCH\nb\n=======\nc\n>>>>>>> REPLACE".toList

/-- `b` in the second line gives way to `c`, by either call, and nothing is lost. -/
theorem edits_keepBytes_secondLine :
    (∃ text edit, replacePlan (readText [0x61, 0x0A, 0x62]) ['b'] ['c'] = .ok (text, edit)
        ∧ [0x61, 0x0A, 0x63] = encode (textOf (replaced [0x61, 0x0A, 0x62] [edit]))
        ∧ (KeepsBytes (replaced [0x61, 0x0A, 0x62] [edit])
          ↔ NothingLost (replaced [0x61, 0x0A, 0x62] [edit])))
    ∧ [0x61, 0x0A, 0x63] = encode (textOf (replaced [0x61, 0x0A, 0x62]
        (diffEdits (readText [0x61, 0x0A, 0x62]) cForB)))
    ∧ (KeepsBytes (replaced [0x61, 0x0A, 0x62] (diffEdits (readText [0x61, 0x0A, 0x62]) cForB))
      ↔ NothingLost (replaced [0x61, 0x0A, 0x62]
          (diffEdits (readText [0x61, 0x0A, 0x62]) cForB))) := by
  have hkeep := edits_keepBytes [0x61, 0x0A, 0x62]
  constructor
  · apply hkeep.1 ['b'] ['c']
    decide
  apply hkeep.2 cForB
    { blocks := [{ index := 0, success := true, message := "第 1 块：已应用" }]
      total := 1
      succeeded := 1
      failed := 0
      written := some [0x61, 0x0A, 0x63] }
  · decide +kernel
  rfl

/-- **A line end far from the edit that changes**: `b` gives way to `c`, and the
CR LF in front of it, in the part that is kept, is written as LF.  A byte that is
no UTF-8 is written as U+FFFD. -/
theorem crlf_lost : (replaceInFile [0x61, 0x0D, 0x0A, 0x62] ['b'] ['c'] = .ok [0x61, 0x0A, 0x63]
      ∧ replacePlan (readText [0x61, 0x0D, 0x0A, 0x62]) ['b'] ['c']
        = .ok (['a', '\n', 'b'], { start := 2, length := 1, text := ['c'] })
      ∧ ¬ KeepsBytes (replaced [0x61, 0x0D, 0x0A, 0x62]
          [{ start := 2, length := 1, text := ['c'] }]))
    ∧ (replaceInFile [0xFF, 0x62] ['b'] ['c'] = .ok [0xEF, 0xBF, 0xBD, 0x63]
      ∧ replacePlan (readText [0xFF, 0x62]) ['b'] ['c']
        = .ok (['\uFFFD', 'b'], { start := 1, length := 1, text := ['c'] })
      ∧ ¬ KeepsBytes (replaced [0xFF, 0x62] [{ start := 1, length := 1, text := ['c'] }])) := by
  constructor
  · refine ⟨by decide, by decide, fun hkeep => ?_⟩
    have hfront := hkeep [.char 'a', .carriage true] (by decide)
    cases hfront
  refine ⟨by decide, by decide, fun hkeep => ?_⟩
  have hfront := hkeep [.junk [0xFF]] (by decide)
  cases hfront

end DeterminFlow.Coding
