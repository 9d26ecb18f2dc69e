/-
  Coding.UniquePlaces
  **A BLOCK REPLACES THE ONLY PLACE THAT MATCHES.**

  `apply_diff` looks for a SEARCH text as it is, then stripped, then with any
  white space for its white space.  The first two rules count the places, and
  `str.count` passes over a place that overlaps the one before it; the third
  takes the first place.
-/
import DeterminFlow.Coding.FileEdits

namespace DeterminFlow.Coding

open Library.PyText Library.TextFile List Option

/-! ## Places -/

inductive Rule where
  | exact
  | stripped
  | fuzzy

/-- What a rule accepts at the beginning of a text. -/
def Rule.Accepts (search : Text) : Rule → Text → Prop
  | .exact, text => search <+: text
  | .stripped, text => strip search <+: text
  | .fuzzy, text => (matchItems (fuzzyPattern (markSpaces search)) text).isSome

/-- A place that the rule accepts. -/
def Rule.At (rule : Rule) (search content : Text) (p : Nat) : Prop :=
  p ≤ content.length ∧ rule.Accepts search (content.drop p)

def ruleOf (search content : Text) : Rule :=
  if (findFirst search content).isSome then .exact
  else if (findFirst (strip search) content).isSome then .stripped
  else .fuzzy

/-- **What a block may do**: an edit replaces the only place of its rule, and a
block without one is reported as failed. -/
def Meets (content : Text) (block : Block) : Prop :=
  ∀ index, ((blockStep index content block).1.success = (blockStep index content block).2.isSome) ∧
    ∀ edit, (blockStep index content block).2 = some edit →
      ∀ p, (ruleOf block.searchText content).At block.searchText content p ↔ p = edit.start

/-- No two places of the text overlap, unless it is counted twice. -/
def Apart (needle content : Text) : Prop :=
  1 < count needle content ∨ ∀ p q, needle <+: content.drop p → needle <+: content.drop q →
    p < q → p + needle.length ≤ q

/-- The condition: no overlapping places, and one place for the third rule. -/
def Plain (content : Text) (block : Block) : Prop :=
  strip block.searchText = [] ∨
    match ruleOf block.searchText content with
    | .exact => Apart block.searchText content
    | .stripped => Apart (strip block.searchText) content
    | .fuzzy => ∀ p q, Rule.fuzzy.At block.searchText content p →
        Rule.fuzzy.At block.searchText content q → p = q

/-- The content behind a block. -/
def after (content : Text) (block : Block) : Text :=
  ((blockStep 0 content block).2.map fun edit => edit.apply content).getD content

/-- A property of every block and of the content as the earlier ones left it. -/
def EachBlock (P : Text → Block → Prop) : Text → List Block → Prop
  | _, [] => True
  | content, block :: rest => P content block ∧ EachBlock P (after content block) rest

/-! ## The first place -/

variable {needle text content search new : Text} {p q start length : Nat} {items : List Item}
  {block : Block} {edit : Edit}

/-- What `find` gives is a place. -/
lemma findFirst_eq_some (h : findFirst needle text = some p) :
    p ≤ text.length ∧ needle <+: text.drop p := by
  induction text generalizing p with
  | nil =>
    rw [findFirst] at h
    split at h
    · next hpre =>
      obtain rfl := some.inj h
      exact ⟨le_rfl, isPrefixOf_iff_prefix.1 hpre⟩
    cases h
  | cons c rest ih =>
    rw [findFirst] at h
    split at h
    · next hpre =>
      obtain rfl := some.inj h
      exact ⟨Nat.zero_le _, isPrefixOf_iff_prefix.1 hpre⟩
    obtain ⟨_, hk, rfl⟩ := map_eq_some_iff.1 h
    exact ⟨Nat.succ_le_succ (ih hk).1, (ih hk).2⟩

lemma findFirst_isSome (hp : p ≤ text.length) (h : needle <+: text.drop p) :
    (findFirst needle text).isSome := by
  induction text generalizing p with
  | nil =>
    rw [drop_nil] at h
    rw [findFirst, if_pos ( isPrefixOf_iff_prefix.2 h)]
    rfl
  | cons c rest ih =>
    rw [findFirst]
    split
    · rfl
    next hpre =>
    cases p with
    | zero => exact absurd ( isPrefixOf_iff_prefix.2 h) hpre
    | succ => simpa using ih (by simpa using hp) h

lemma search_eq_some (h : Coding.search items text = some (start, length)) :
    start ≤ text.length ∧ ∃ captured, matchItems items (text.drop start) = some (captured, length) := by
  induction text generalizing start with
  | nil =>
    obtain ⟨m, hm, hpair⟩ := map_eq_some_iff.1 h
    obtain ⟨rfl, rfl⟩ := Prod.mk.inj hpair
    exact ⟨le_rfl, m.1, hm⟩
  | cons c rest ih =>
    rw [Coding.search] at h
    split at h
    · next m hm =>
      obtain ⟨rfl, rfl⟩ := Prod.mk.inj (some.inj h)
      exact ⟨Nat.zero_le _, m.1, hm⟩
    obtain ⟨_, hfound, hpair⟩ := map_eq_some_iff.1 h
    obtain ⟨rfl, rfl⟩ := Prod.mk.inj hpair
    exact ⟨Nat.succ_le_succ (ih hfound).1, (ih hfound).2⟩

/-! ## Counting -/

lemma countFrom_pos {fuel : Nat} (hne : needle ≠ []) (hfuel : text.length ≤ fuel)
    (h : needle <+: text.drop p) : 1 ≤ countFrom needle fuel text := by
  induction fuel generalizing text p with
  | zero =>
    rw [eq_nil_of_length_eq_zero (Nat.le_zero.1 hfuel), drop_nil, prefix_nil] at h
    exact absurd h hne
  | succ fuel ih =>
    cases text with
    | nil => exact absurd (prefix_nil.1 (drop_nil ▸ h)) hne
    | cons c rest =>
      rw [countFrom]
      split
      · omega
      next hpre =>
      cases p with
      | zero => exact absurd ( isPrefixOf_iff_prefix.2 h) hpre
      | succ => exact ih (Nat.le_of_succ_le_succ hfuel) h

/-- Two places apart are counted twice. -/
lemma countFrom_two {fuel : Nat} (hne : needle ≠ []) (hfuel : text.length ≤ fuel)
    (hp : needle <+: text.drop p) (hq : needle <+: text.drop q) (hpq : p + needle.length ≤ q) :
    2 ≤ countFrom needle fuel text := by
  have hlen : 0 < needle.length := length_pos_of_ne_nil hne
  induction fuel generalizing text p q with
  | zero =>
    rw [eq_nil_of_length_eq_zero (Nat.le_zero.1 hfuel), drop_nil, prefix_nil] at hp
    exact absurd hp hne
  | succ fuel ih =>
    cases text with
    | nil => exact absurd (prefix_nil.1 (drop_nil ▸ hp)) hne
    | cons c rest =>
      rw [countFrom]
      split
      · -- the later place is still there behind the first one
        have hlater : 1 ≤ countFrom needle fuel ((c :: rest).drop needle.length) := by
          apply countFrom_pos (p := q - needle.length) hne
          · simp only [length_drop, length_cons] at hfuel ⊢
            omega
          rw [drop_drop]
          rwa [show needle.length + (q - needle.length) = q by omega]
        omega
      next hpre =>
      obtain ⟨q, rfl⟩ : ∃ k, q = k + 1 := ⟨q - 1, by omega⟩
      cases p with
      | zero => exact absurd ( isPrefixOf_iff_prefix.2 hp) hpre
      | succ => exact ih (Nat.le_of_succ_le_succ hfuel) hp hq (by omega)

lemma lt_length_of_prefix (hne : needle ≠ []) (h : needle <+: text.drop p) : p < text.length := by
  by_contra hge
  rw [drop_eq_nil_of_le (Nat.le_of_not_lt hge), prefix_nil] at h
  exact hne h

/-- With one count, the places that do not overlap are one place. -/
lemma apart_iff (hne : needle ≠ []) (hcount : ¬ 1 < count needle content) :
    Apart needle content ↔ ∀ p q, needle <+: content.drop p → needle <+: content.drop q → p = q := by
  have htwo : ∀ p q, needle <+: content.drop p → needle <+: content.drop q →
      ¬ p + needle.length ≤ q := fun p q hp hq hpq => hcount (by
    rw [count, if_neg hne]
    exact countFrom_two hne le_rfl hp hq hpq)
  constructor
  · rintro (hmore | hapart) p q hp hq
    · exact absurd hmore hcount
    rcases Nat.lt_trichotomy p q with hlt | heq | hgt
    · exact absurd (hapart p q hp hq hlt) (htwo p q hp hq)
    · exact heq
    exact absurd (hapart q p hq hp hgt) (htwo q p hq hp)
  refine fun hone => .inr fun p q hp hq hlt => ?_
  obtain rfl := hone p q hp hq
  omega

/-! ## Matching a text that goes on otherwise -/

lemma take_drop_prefix {k n : Nat} {more : Text} (h : text.take (n + k) <+: more) :
    (text.drop k).take n <+: more.drop k := by
  obtain ⟨_, rfl⟩ := h
  rw [drop_append, drop_take, Nat.add_sub_cancel]
  exact prefix_append _ _

lemma takeWhile_of_prefix {k : Nat} {more : Text} (hk : k ≤ (text.takeWhile isSpace).length)
    (h : text.take k <+: more) : k ≤ (more.takeWhile isSpace).length := by
  obtain ⟨_, rfl⟩ := h
  have htake : text.take k = (text.takeWhile isSpace).take k := by
    conv_lhs => rw [← takeWhile_append_dropWhile (p := isSpace) (l := text)]
    exact take_append_of_le_length hk
  rw [takeWhile_append_of_pos, length_append, htake, length_take_of_le hk]
  · exact Nat.le_add_right _ _
  intro _ hc
  rw [htake] at hc
  exact mem_takeWhile_imp (mem_of_mem_take hc)

lemma fuzzyPattern_items : ∀ text, ∀ item ∈ fuzzyPattern text, item ≠ .optLf ∧ item ≠ .lazyAny := by
  intro text
  fun_induction fuzzyPattern text <;> simp_all

/-- What matches still matches where the matched text is followed by another. -/
lemma matchItems_extend {more : Text} {captured : List Text}
    (hitems : ∀ item ∈ items, item ≠ .optLf ∧ item ≠ .lazyAny)
    (h : matchItems items text = some (captured, length)) (hpre : text.take length <+: more) :
    (matchItems items more).isSome := by
  induction items generalizing text more captured length with
  | nil => rfl
  | cons item items ih =>
    cases item with
    | lit c =>
      cases text with
      | nil => cases h
      | cons d text =>
        rw [matchItems] at h
        split at h
        · next heq =>
          obtain ⟨m, hm, hpair⟩ := map_eq_some_iff.1 h
          obtain ⟨-, rfl⟩ := Prod.mk.inj hpair
          rw [take_succ_cons] at hpre
          obtain ⟨_, rfl⟩ := hpre
          rw [cons_append, matchItems, if_pos heq, isSome_map]
          exact ih (forall_mem_of_forall_mem_cons hitems) hm (prefix_append _ _)
        cases h
    | spaces =>
      rw [matchItems] at h ⊢
      obtain ⟨_, hk, hmatch⟩ := exists_of_findSome?_eq_some h
      obtain ⟨m, hm, hpair⟩ := map_eq_some_iff.1 hmatch
      obtain ⟨-, rfl⟩ := Prod.mk.inj hpair
      obtain ⟨i, hi, rfl⟩ := mem_map.1 hk
      rw [mem_range] at hi
      -- the same number of spaces is there, with more choices around it
      have hrun := takeWhile_of_prefix (Nat.sub_le _ i)
        (((take_prefix_take_left (Nat.le_add_left _ m.2)).trans hpre))
      refine findSome?_isSome_iff.2 ⟨_, mem_map.2 ⟨(more.takeWhile isSpace).length -
        ((text.takeWhile isSpace).length - i), mem_range.2 (by omega), rfl⟩, ?_⟩
      rw [isSome_map, Nat.sub_sub_self hrun]
      exact ih (forall_mem_of_forall_mem_cons hitems) hm ( take_drop_prefix hpre)
    | optLf => exact absurd rfl (hitems _ mem_cons_self).1
    | lazyAny => exact absurd rfl (hitems _ mem_cons_self).2

/-! ## One block, and all of them -/

lemma search_isSome (hp : p ≤ text.length) (h : (matchItems items (text.drop p)).isSome) :
    (Coding.search items text).isSome := by
  induction text generalizing p with
  | nil =>
    rw [drop_nil] at h
    rwa [Coding.search, isSome_map]
  | cons c rest ih =>
    rw [Coding.search]
    split
    · rfl
    next hnone =>
    cases p with
    | zero =>
      rw [drop_zero, hnone] at h
      cases h
    | succ => simpa using ih (by simpa using hp) h

/-- Where a block is applied. -/
def placeOf (content : Text) (block : Block) : Option Nat :=
  match ruleOf block.searchText content with
  | .exact =>
    if 1 < count block.searchText content then none else findFirst block.searchText content
  | .stripped =>
    if 1 < count (strip block.searchText) content then none
    else findFirst (strip block.searchText) content
  | .fuzzy => (Coding.search (fuzzyPattern (markSpaces block.searchText)) content).bind fun m =>
    findFirst ((content.drop m.1).take m.2) content

lemma blockStep_place (content : Text) (block : Block) (index : Nat) :
    (blockStep index content block).1.success = (blockStep index content block).2.isSome ∧
      (blockStep index content block).2.map (·.start) =
        if strip block.searchText = [] then none else placeOf content block := by
  unfold blockStep placeOf ruleOf firstEdit
  by_cases hempty : strip block.searchText = []
  · simp [hempty]
  simp only [hempty, if_false]
  cases findFirst block.searchText content with
  | some => by_cases hcount : 1 < count block.searchText content <;> simp [hcount]
  | none =>
    cases findFirst (strip block.searchText) content with
    | some => by_cases hcount : 1 < count (strip block.searchText) content <;> simp [hcount]
    | none =>
      cases Coding.search (fuzzyPattern (markSpaces block.searchText)) content with
      | none => simp
      | some m =>
        simp only [map_none, isSome_none, Bool.false_eq_true, if_false, bind_some]
        cases findFirst ((content.drop m.1).take m.2) content <;> simp

lemma at_prefix_iff (hne : needle ≠ []) :
    (p ≤ content.length ∧ needle <+: content.drop p) ↔ needle <+: content.drop p :=
  ⟨And.right, fun h => ⟨( lt_length_of_prefix hne h).le, h⟩⟩

/-- The first two rules: applied at the only place, unless places overlap. -/
lemma unique_iff_apart (hne : needle ≠ []) (hsome : (findFirst needle content).isSome) :
    (∀ start, (if 1 < count needle content then none else findFirst needle content) = some start →
      ∀ p, (p ≤ content.length ∧ needle <+: content.drop p) ↔ p = start) ↔ Apart needle content := by
  obtain ⟨start, hstart⟩ := isSome_iff_exists.1 hsome
  by_cases hcount : 1 < count needle content
  · simp [hcount, Apart]
  rw [apart_iff hne hcount]
  simp only [hcount, if_false, hstart, some.injEq, forall_eq', at_prefix_iff hne]
  have hat := (findFirst_eq_some hstart).2
  exact ⟨fun h p q hp hq => ((h p).1 hp).trans ((h q).1 hq).symm,
    fun h p => ⟨fun hp => h p start hp hat, fun heq => heq ▸ hat⟩⟩

/-- The third rule: the matched text is looked for again, and what is found
matches as well. -/
lemma unique_iff_fuzzy (hitems : ∀ item ∈ items, item ≠ .optLf ∧ item ≠ .lazyAny) :
    (∀ start, ((Coding.search items content).bind fun m =>
      findFirst ((content.drop m.1).take m.2) content) = some start →
      ∀ p, (p ≤ content.length ∧ (matchItems items (content.drop p)).isSome) ↔ p = start) ↔
    ∀ p q, (p ≤ content.length ∧ (matchItems items (content.drop p)).isSome) →
      (q ≤ content.length ∧ (matchItems items (content.drop q)).isSome) → p = q := by
  cases hsearch : Coding.search items content with
  | none =>
    have hnone : ∀ p, ¬ (p ≤ content.length ∧ (matchItems items (content.drop p)).isSome) :=
      fun p hp => by
        have hsome := search_isSome hp.1 hp.2
        rw [hsearch] at hsome
        cases hsome
    simp only [bind_none, reduceCtorEq, false_implies, implies_true, true_iff]
    exact fun p _ hp => absurd hp (hnone p)
  | some m =>
    obtain ⟨hle, _, hmatch⟩ := search_eq_some hsearch
    obtain ⟨start, hstart⟩ := isSome_iff_exists.1
      (findFirst_isSome hle ( take_prefix m.2 (content.drop m.1)))
    obtain ⟨hstartle, hpre⟩ := findFirst_eq_some hstart
    have hat : start ≤ content.length ∧ (matchItems items (content.drop start)).isSome :=
      ⟨hstartle, matchItems_extend hitems hmatch hpre⟩
    simp only [bind_some, hstart, some.injEq, forall_eq']
    exact ⟨fun h p q hp hq => ((h p).1 hp).trans ((h q).1 hq).symm,
      fun h p => ⟨fun hp => h p start hp hat, fun heq => heq ▸ hat⟩⟩

/-- **One block.** -/
theorem meets_iff (content : Text) (block : Block) : Meets content block ↔ Plain content block := by
  have hmeets : Meets content block ↔ ∀ start,
      (if strip block.searchText = [] then none else placeOf content block) = some start →
      ∀ p, (ruleOf block.searchText content).At block.searchText content p ↔ p = start := by
    constructor
    · intro h start hstart
      rw [← (blockStep_place content block 0).2] at hstart
      obtain ⟨edit, hedit, rfl⟩ := map_eq_some_iff.1 hstart
      exact (h 0).2 edit hedit
    refine fun h index => ⟨(blockStep_place content block index).1, fun edit hedit => h _ ?_⟩
    rw [← (blockStep_place content block index).2, hedit, map_some]
  rw [hmeets, Plain]
  by_cases hempty : strip block.searchText = []
  · simp [hempty]
  have hsearch : block.searchText ≠ [] := fun h => hempty (by rw [h]; rfl)
  simp only [hempty, if_false, false_or, placeOf]
  cases hrule : ruleOf block.searchText content with
  | exact =>
    refine unique_iff_apart hsearch ?_
    by_contra hnone
    rw [ruleOf, if_neg hnone] at hrule
    split at hrule <;> cases hrule
  | stripped =>
    refine unique_iff_apart hempty ?_
    by_contra hnone
    rw [ruleOf, if_neg hnone] at hrule
    split at hrule <;> cases hrule
  | fuzzy => exact unique_iff_fuzzy (fuzzyPattern_items _)

lemma eachBlock_congr {P Q : Text → Block → Prop} (h : ∀ content block, P content block ↔ Q content block) :
    ∀ (blocks : List Block) (content : Text), EachBlock P content blocks ↔ EachBlock Q content blocks
  | [], _ => .rfl
  | block :: rest, content => and_congr (h content block) (eachBlock_congr h rest _)

lemma blockStep_edit (content : Text) (block : Block) (index : Nat) :
    (blockStep index content block).2 = (blockStep 0 content block).2 := by
  unfold blockStep
  dsimp only
  repeat' split
  all_goals rfl

/-- The edits of a diff, in order, are its blocks in order. -/
lemma runBlocks_after (blocks : List Block) : ∀ (index : Nat) (content : Text),
    ((runBlocks index content blocks).filterMap (·.2)).foldl (fun text edit => edit.apply text)
      content = blocks.foldl after content := by
  induction blocks with
  | nil => exact fun _ _ => rfl
  | cons block rest ih =>
    intro index content
    rw [foldl_cons, ← ih (index + 1), runBlocks, after, ← blockStep_edit content block index]
    cases hedit : (blockStep index content block).2 with
    | _ => simp [hedit]

/-- **All blocks of a diff**: each replaces the only place of its rule in the
content as the earlier ones left it, exactly when it is plain there; and what is
written is the content with the successful blocks applied in order. -/
theorem applyDiff_unique_iff (file : List UInt8) (diff : Text) :
    (EachBlock Meets (readText file) (blocksOf diff) ↔
      EachBlock Plain (readText file) (blocksOf diff)) ∧
    ∀ result out, applyDiff file diff = .ok result → result.written = some out →
      out = encode ((blocksOf diff).foldl after (readText file)) := by
  refine ⟨eachBlock_congr meets_iff _ _, fun result out h hout => ?_⟩
  rw [applyDiff] at h
  split at h
  · cases h
  obtain rfl := Except.ok.inj h
  simp only [diffEdits, runBlocks_after] at hout
  split at hout
  · cases hout
  exact (some.inj hout).symm

/-- `b` in the second line gives way to `c`. -/
theorem applyDiff_unique_secondLine :
    (EachBlock Meets (readText [0x61, 0x0A, 0x62]) (blocksOf cForB) ↔
      EachBlock Plain (readText [0x61, 0x0A, 0x62]) (blocksOf cForB)) ∧
    [0x61, 0x0A, 0x63] = encode ((blocksOf cForB).foldl after (readText [0x61, 0x0A, 0x62])) := by
  have h := applyDiff_unique_iff [0x61, 0x0A, 0x62] cForB
  refine ⟨h.1, h.2
    { blocks := [{ index := 0, success := true, message := "第 1 块：已应用" }]
      total := 1
      succeeded := 1
      failed := 0
      written := some [0x61, 0x0A, 0x63] } _ ?_ rfl⟩
  decide +kernel

def spacedDiff : Text := "<<<<<<< SEARCH\na b\n=======\nc\n>>>>>>> REPLACE".toList

/-- `a  ba  b` has two places, and the first one is replaced. -/
theorem spacedDiff_ambiguous :
    ¬ ∀ (file : List UInt8) (diff : Text), EachBlock Meets (readText file) (blocksOf diff) := by
  intro hall
  have hblocks : blocksOf spacedDiff = [⟨['a', ' ', 'b'], ['c']⟩] := by decide +kernel
  have hall := hall [0x61, 0x20, 0x20, 0x62, 0x61, 0x20, 0x20, 0x62] spacedDiff
  rw [hblocks, show readText [0x61, 0x20, 0x20, 0x62, 0x61, 0x20, 0x20, 0x62] =
    "a  ba  b".toList by decide +kernel] at hall
  have hrule : ruleOf ['a', ' ', 'b'] "a  ba  b".toList = .fuzzy := rfl
  have hplace := ((hall.1 0).2 ⟨0, 4, ['c']⟩ (by decide +kernel) 4).1
  rw [hrule] at hplace
  have haccepts : (matchItems (fuzzyPattern (markSpaces ['a', ' ', 'b'])) ("a  ba  b".toList.drop 4)).isSome :=
    by decide +kernel
  exact absurd (hplace ⟨by decide, haccepts⟩) (by decide)

end DeterminFlow.Coding
