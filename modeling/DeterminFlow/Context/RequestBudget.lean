/-
  Context.RequestBudget
  **CLIPPING TOOL RESULTS TO A BUDGET.**

  `compact_for_request` goes through the tool results from the oldest to the
  newest and clips each by what is still too much, but not below 64 tokens.
  The running excess and the contents stay in step: what a clipped result
  costs is subtracted, its marker included, and the marker alone is smaller
  than the floor.
-/
import DeterminFlow.Context.FullCompact
import Mathlib.Algebra.BigOperators.Group.List.Basic

namespace DeterminFlow.Context

open Library List

/-! ## One content -/

/-- `sys.maxsize`: no Python text has more characters. -/
def maxSize : Nat := 9223372036854775807

lemma estimateTokens_le (text : String) :
    estimateTokens text ≤ 8 * text.toList.length / 12 + 1 := by
  unfold estimateTokens
  split
  · omega
  have hcount : text.toList.countP isChinese ≤ text.toList.length := countP_le_length
  show (8 * text.toList.countP isChinese
    + 3 * (text.toList.length - text.toList.countP isChinese)) / 12 + 1 ≤ _
  omega

lemma marker_tokens {original : Nat} (h : original < 10 ^ 20) :
    estimateTokens (String.ofList ("\n...[Tool result clipped: original ~" ++ toString original
      ++ " tokens]...\n").toList) ≤ 64 := by
  have hdigits : (toString original).toList.length ≤ 20 := by
    show (Nat.repr original).toList.length ≤ 20
    rw [Nat.toList_repr]
    exact (Nat.length_toDigits_le_iff (by omega) (by omega)).2 h
  have htokens := estimateTokens_le (String.ofList ("\n...[Tool result clipped: original ~"
    ++ toString original ++ " tokens]...\n").toList)
  generalize hmarker : estimateTokens _ = tokens at htokens ⊢
  have hfront : "\n...[Tool result clipped: original ~".toList.length = 36 := by decide
  have hback : " tokens]...\n".toList.length = 12 := by decide
  rw [String.toList_ofList, String.toList_append, String.toList_append, length_append,
    length_append, hfront, hback] at htokens
  omega

lemma clipSearch_tokens (text marker : List Char) {target : Nat} (fuel : Nat) {low high : Nat}
    {best : List Char} (h : estimateTokens (String.ofList best) ≤ target) :
    estimateTokens (String.ofList (clipSearch text marker target fuel low high best)) ≤ target := by
  induction fuel generalizing low high best with
  | zero => exact h
  | succ fuel ih =>
    unfold clipSearch
    split
    · exact h
    simp only
    split
    · next hfits => exact ih hfits
    exact ih h

lemma clipContent_tokens {content : Content} (target : Nat)
    (hsize : content.shown.toList.length ≤ maxSize) :
    estimateTokens (clipContent content target) ≤ max 64 target := by
  have hlength : (if content.nonempty then content.shown else "").toList.length ≤ maxSize := by
    split
    · exact hsize
    exact Nat.zero_le _
  unfold clipContent
  generalize (if content.nonempty then content.shown else "") = text at hlength
  show estimateTokens (if estimateTokens text ≤ target then text else _) ≤ _
  by_cases hfits : estimateTokens text ≤ target
  · rw [if_pos hfits]
    omega
  rw [if_neg hfits]
  refine clipSearch_tokens _ _ _ (le_trans (marker_tokens ?_) (Nat.le_max_left _ _))
  have htokens := estimateTokens_le text
  unfold maxSize at hlength
  omega

lemma contentTokens_text (m : Message) (text : String) : contentTokens { m with content :=.text text } ≤ estimateTokens text := by
  unfold contentTokens
  split
  · exact le_rfl
  exact Nat.zero_le _

/-! ## One candidate -/

variable {messages : List Message}

/-- **What a candidate becomes**: it stays when nothing is too much or when it is
at the floor; else it is clipped, and then nothing is too much or it is at the
floor. -/
theorem clipCandidate_spec {i : Nat} {m : Message} {excess : Int} (hm : messages[i]? = some m)
    (hsize : m.content.shown.toList.length ≤ maxSize) :
    (clipCandidate (messages, excess) i = (messages, excess) ∧ (excess ≤ 0 ∨ contentTokens m ≤ 64))
      ∨ ∃ content : Content, 0 < excess
        ∧ clipCandidate (messages, excess) i = (messages.set i { m with content := content },
            excess - ((contentTokens m : Int) - contentTokens { m with content := content }))
        ∧ (excess - ((contentTokens m : Int) - contentTokens { m with content := content }) ≤ 0
          ∨ contentTokens { m with content := content } ≤ 64) := by
  unfold clipCandidate
  simp only [hm]
  by_cases hexcess : excess ≤ 0
  · rw [if_pos hexcess]
    exact .inl ⟨rfl, .inl hexcess⟩
  rw [if_neg hexcess]
  by_cases hfloor : contentTokens m ≤ 64
  · rw [if_pos (by omega)]
    exact .inl ⟨rfl, .inr hfloor⟩
  rw [if_neg (by omega)]
  refine .inr ⟨.text (clipContent m.content
    (max (min 64 (contentTokens m) : Int) ((contentTokens m : Int) - excess)).toNat), by omega, ?_, ?_⟩
  all_goals
    have htokens := le_trans (contentTokens_text m (clipContent m.content
      (max (min 64 (contentTokens m) : Int) ((contentTokens m : Int) - excess)).toNat))
      (clipContent_tokens _ hsize)
  · congr 2
    omega
  omega

/-! ## All candidates -/

def contentAt (messages : List Message) (i : Nat) : Nat :=
  ((messages[i]?).map contentTokens).getD 0

variable {m : Message} {i budget : Nat} {done : List Nat} {state : List Message × Int}

lemma contentAt_of (hm : messages[i]? = some m) : contentAt messages i = contentTokens m := by
  unfold contentAt
  rw [hm]
  rfl

lemma contentAt_set_ne {j : Nat} (h : i ≠ j) (m : Message) :
    contentAt (messages.set i m) j = contentAt messages j := by
  unfold contentAt
  rw [getElem?_set_ne h]

lemma contentAt_set (hm : messages[i]? = some m) (m' : Message) :
    contentAt (messages.set i m') i = contentTokens m' :=
  contentAt_of (by rw [getElem?_set_self (List.getElem?_eq_some_iff.1 hm).1])

lemma sum_contentAt_set {indices : List Nat} (m' : Message) (hnodup : indices.Nodup)
    (hi : i ∈ indices) (hm : messages[i]? = some m) :
    (indices.map (contentAt (messages.set i m'))).sum + contentTokens m
      = (indices.map (contentAt messages)).sum + contentTokens m' := by
  induction indices with
  | nil => cases hi
  | cons j rest ih =>
    have hj := nodup_cons.1 hnodup
    simp only [map_cons, sum_cons]
    rcases mem_cons.1 hi with rfl | hrest
    · have hsame : rest.map (contentAt (messages.set i m')) = rest.map (contentAt messages) :=
        map_congr_left (fun _ hk => contentAt_set_ne (by rintro rfl; exact hj.1 hk) m')
      rw [hsame, contentAt_set hm, contentAt_of hm]
      omega
    have hne : i ≠ j := by
      rintro rfl
      exact hj.1 hrest
    have htail := ih hj.2 hrest
    rw [contentAt_set_ne hne]
    omega

/-- The loop after the candidates `done`, before `rest`. -/
structure Clipping (messages : List Message) (budget : Nat) (done rest : List Nat)
    (state : List Message × Int) : Prop where
  length : state.1.length = messages.length
  content : ∀ (i : Nat) (m : Message), messages[i]? = some m → ∃ content : Content,
    state.1[i]? = some { m with content := content }
  kept : ∀ i, i ∉ done → state.1[i]? = messages[i]?
  /-- The excess and the contents are in step. -/
  excess : state.2 = (((done ++ rest).map (contentAt state.1)).sum : Int) - budget
  floor : state.2 ≤ 0 ∨ ∀ i ∈ done, contentAt state.1 i ≤ 64
  /-- A result is clipped only behind results at the floor. -/
  order : ∀ j ∈ done, state.1[j]? ≠ messages[j]? → ∀ i ∈ done, i < j → contentAt state.1 i ≤ 64

lemma Clipping.step {rest : List Nat} (h : Clipping messages budget done (i :: rest) state)
    (hm : messages[i]? = some m) (hsize : m.content.shown.toList.length ≤ maxSize)
    (hsorted : (done ++ i :: rest).Pairwise (· < ·)) :
    Clipping messages budget (done ++ [i]) rest (clipCandidate state i) := by
  have hnodup : (done ++ i :: rest).Nodup := hsorted.imp (fun hlt => Nat.ne_of_lt hlt)
  have hbefore : ∀ j ∈ done, j < i := fun j hj =>
    (pairwise_append.1 hsorted).2.2 j hj i mem_cons_self
  have hi : i ∉ done := fun hmem => lt_irrefl i (hbefore i hmem)
  have hstate : state.1[i]? = some m := (h.kept i hi).trans hm
  have hlist : done ++ [i] ++ rest = done ++ i :: rest := by simp
  have hspec := @clipCandidate_spec state.1 i m state.2 hstate hsize
  rcases hspec with ⟨heq, hstay⟩ | ⟨content, _, heq, hclip⟩
  · rw [show clipCandidate state i = state from heq]
    refine ⟨h.length, h.content, fun j hj => h.kept j (fun hmem => hj (mem_append_left _ hmem)),
      by rw [hlist]; exact h.excess, ?_, ?_⟩
    · rcases hstay with hneg | hfloor
      · exact .inl hneg
      refine h.floor.imp_right (fun hdone j hj => ?_)
      rcases mem_append.1 hj with hj | hj
      · exact hdone j hj
      rw [mem_singleton.1 hj, contentAt_of hstate]
      exact hfloor
    intro j hj hne k hk hkj
    rcases mem_append.1 hj with hj | hj
    · rcases mem_append.1 hk with hk | hk
      · exact h.order j hj hne k hk hkj
      rw [mem_singleton.1 hk] at hkj
      exact absurd hkj (Nat.lt_asymm (hbefore j hj))
    rw [mem_singleton.1 hj, hstate, hm] at hne
    exact absurd rfl hne
  rw [show clipCandidate state i = _ from heq]
  have hfloor := h.floor.resolve_left (by omega)
  have hother : ∀ j, j ≠ i → (state.1.set i { m with content := content })[j]? = state.1[j]? :=
    fun j hj => getElem?_set_ne (Ne.symm hj)
  have hself : (state.1.set i { m with content := content })[i]?
      = some { m with content := content } :=
    getElem?_set_self (List.getElem?_eq_some_iff.1 hstate).1
  have hdone : ∀ j ∈ done, contentAt (state.1.set i { m with content := content }) j ≤ 64 := by
    intro j hj
    rw [contentAt_set_ne (by rintro rfl; exact hi hj)]
    exact hfloor j hj
  refine ⟨by rw [length_set]; exact h.length, fun j m' hm' => ?_, fun j hj => ?_, ?_, ?_, ?_⟩
  · by_cases hji : j = i
    · subst hji
      obtain rfl := Option.some.inj (hm.symm.trans hm')
      exact ⟨content, hself⟩
    show ∃ content', (state.1.set i { m with content := content })[j]? = _
    rw [hother j hji]
    exact h.content j m' hm'
  · show (state.1.set i { m with content := content })[j]? = _
    rw [hother j (fun heq => hj (heq ▸ mem_append_right _ (mem_singleton.2 rfl)))]
    exact h.kept j (fun hmem => hj (mem_append_left _ hmem))
  · have hsum := sum_contentAt_set { m with content := content } hnodup
      (mem_append_right _ mem_cons_self) hstate
    have hexcess := h.excess
    rw [hlist]
    show state.2 - _ = (((done ++ i :: rest).map
      (contentAt (state.1.set i { m with content := content }))).sum : Int) - budget
    omega
  · refine hclip.imp_right (fun hsmall j hj => ?_)
    rcases mem_append.1 hj with hj | hj
    · exact hdone j hj
    rw [mem_singleton.1 hj]
    show contentAt (state.1.set i _) i ≤ 64
    rw [contentAt_set hstate]
    exact hsmall
  intro j hj _ k hk hkj
  rcases mem_append.1 hk with hk | hk
  · exact hdone k hk
  rw [mem_singleton.1 hk] at hkj
  rcases mem_append.1 hj with hj | hj
  · exact absurd hkj (Nat.lt_asymm (hbefore j hj))
  rw [mem_singleton.1 hj] at hkj
  exact absurd hkj (lt_irrefl i)

lemma Clipping.run {rest : List Nat} (h : Clipping messages budget done rest state)
    (hthere : ∀ i ∈ rest, ∃ m, messages[i]? = some m ∧ m.content.shown.toList.length ≤ maxSize)
    (hsorted : (done ++ rest).Pairwise (· < ·)) :
    Clipping messages budget (done ++ rest) [] (rest.foldl clipCandidate state) := by
  induction rest generalizing done state with
  | nil =>
    rw [append_nil]
    exact h
  | cons i rest ih =>
    obtain ⟨m, hm, hsize⟩ := hthere i mem_cons_self
    have hlist : done ++ i :: rest = done ++ [i] ++ rest := by simp
    rw [foldl_cons, hlist]
    exact ih (h.step hm hsize hsorted) (fun j hj => hthere j (mem_cons_of_mem i hj)) (hlist ▸ hsorted)

/-! ## The request -/

def toolTokens (messages : List Message) : Nat :=
  ((messages.filter (·.role = .tool)).map contentTokens).sum

/-- `_tool_message_indices`. -/
def toolIndices (messages : List Message) : List Nat :=
  (List.range messages.length).filter (hasRole messages .tool)

lemma mem_toolIndices {messages : List Message} :
    i ∈ toolIndices messages ↔ ∃ m, messages[i]? = some m ∧ m.role = .tool := by
  unfold toolIndices hasRole
  rw [mem_filter, mem_range]
  constructor
  · intro h
    have hget := getElem?_eq_getElem h.1
    exact ⟨_, hget, by simpa [hget] using h.2⟩
  rintro ⟨m, hm, hrole⟩
  exact ⟨(List.getElem?_eq_some_iff.1 hm).1, by simpa [hm] using hrole⟩

lemma sum_toolIndices (messages : List Message) :
    ((toolIndices messages).map (contentAt messages)).sum = toolTokens messages := by
  unfold toolIndices
  induction messages with
  | nil => rfl
  | cons m rest ih =>
    have htail : ((((List.range rest.length).map Nat.succ).filter (hasRole (m :: rest) .tool)).map
        (contentAt (m :: rest))).sum = toolTokens rest := by
      rw [filter_map, map_map, ← ih]
      rfl
    rw [length_cons, range_succ_eq_map, filter_cons]
    by_cases hrole : m.role = .tool
    · rw [if_pos (show hasRole (m :: rest) .tool 0 = true from decide_eq_true hrole), map_cons,
        sum_cons, htail]
      unfold toolTokens
      rw [filter_cons_of_pos (by simpa using hrole), map_cons, sum_cons]
      rfl
    rw [if_neg (show ¬ hasRole (m :: rest) .tool 0 = true from fun h => hrole (of_decide_eq_true h)),
      htail]
    unfold toolTokens
    rw [filter_cons_of_neg (by simpa using hrole)]

/-- What `compact_for_request` keeps to. -/
structure Compacted (budget : Nat) (messages result : List Message) : Prop where
  /-- The budget is met, or every tool result is at the floor. -/
  fits : toolTokens result ≤ budget ∨ ∀ m ∈ result, m.role = .tool → contentTokens m ≤ 64
  /-- A tool result is changed only when every older one is at the floor. -/
  oldestFirst : ∀ (i j : Nat) (m : Message), i < j → result[j]? ≠ messages[j]? →
    result[i]? = some m → m.role = .tool → contentTokens m ≤ 64
  /-- Nothing but contents of tool results changes. -/
  length : result.length = messages.length
  others : ∀ (i : Nat) (m : Message), messages[i]? = some m → m.role ≠ .tool → result[i]? = some m
  content : ∀ (i : Nat) (m : Message), messages[i]? = some m →
    ∃ content : Content, result[i]? = some { m with content := content }

/-- **The budget of the tool results.** -/
theorem compactForRequest_spec (cfg : CompressionConfig) {messages : List Message}
    (hsize : ∀ m ∈ messages, m.role = .tool → m.content.shown.toList.length ≤ maxSize) :
    Compacted cfg.toolBudget messages (compactForRequest cfg messages) := by
  have hsorted : (toolIndices messages).Pairwise (· < ·) := pairwise_lt_range.filter _
  have hstart : Clipping messages cfg.toolBudget [] (toolIndices messages)
      (messages, ((toolIndices messages).map (contentAt messages)).sum - cfg.toolBudget) := by
    refine ⟨rfl, fun i m hm => ⟨m.content, hm⟩, fun _ _ => rfl, rfl, .inr ?_, ?_⟩
    · exact nofun
    exact nofun
  have hend := hstart.run (fun i hi => by
    obtain ⟨m, hm, hrole⟩ := mem_toolIndices.1 hi
    exact ⟨m, hm, hsize m (mem_of_getElem? hm) hrole⟩) hsorted
  have hresult : ((toolIndices messages).foldl clipCandidate
      (messages, ((toolIndices messages).map (contentAt messages)).sum - cfg.toolBudget)).1
        = compactForRequest cfg messages := rfl
  generalize List.foldl clipCandidate _ _ = state at hend hresult
  rw [nil_append] at hend
  rw [← hresult]
  -- a tool result of the outcome stands where one stood before
  have hplace : ∀ (i : Nat) (m : Message), state.1[i]? = some m → m.role = .tool →
      i ∈ toolIndices messages := by
    intro i m hm hrole
    have hlt : i < messages.length := hend.length ▸ (List.getElem?_eq_some_iff.1 hm).1
    obtain ⟨content, hcontent⟩ := hend.content i _ (getElem?_eq_getElem hlt)
    obtain rfl := Option.some.inj (hm.symm.trans hcontent)
    exact mem_toolIndices.2 ⟨_, getElem?_eq_getElem hlt, hrole⟩
  refine ⟨?_, ?_, hend.length, ?_, hend.content⟩
  · have hexcess := hend.excess
    have hroles : toolIndices messages = toolIndices state.1 := by
      unfold toolIndices
      rw [hend.length]
      refine filter_congr (fun i hi => ?_)
      have hlt := mem_range.1 hi
      obtain ⟨content, hcontent⟩ := hend.content i _ (getElem?_eq_getElem hlt)
      unfold hasRole
      rw [hcontent, getElem?_eq_getElem hlt]
      rfl
    rw [append_nil] at hexcess
    rcases hend.floor with hdone | hfloor
    · left
      rw [← sum_toolIndices, ← hroles]
      omega
    right
    intro m hm hrole
    obtain ⟨i, hi⟩ := mem_iff_getElem?.1 hm
    rw [← contentAt_of hi]
    exact hfloor i (hplace i m hi hrole)
  · intro i j m hij hne hm hrole
    have hj : j ∈ toolIndices messages := by
      by_contra hnot
      exact hne (hend.kept j hnot)
    rw [← contentAt_of hm]
    exact hend.order j hj hne i (hplace i m hm hrole) hij
  intro i m hm hrole
  rw [← hm]
  refine hend.kept i (fun hi => ?_)
  obtain ⟨_, hm', hrole'⟩ := mem_toolIndices.1 hi
  obtain rfl := Option.some.inj (hm.symm.trans hm')
  exact hrole hrole'

def twoResults : List Message :=
  [{ role := .tool, content := .text (String.ofList (List.replicate 316 'a')), toolCallId := "a" },
    { role := .tool, content := .text (String.ofList (List.replicate 316 'b')), toolCallId := "b" }]

theorem compactForRequest_two : Compacted 100 twoResults (compactForRequest { toolBudget :=100 } twoResults) := by
  have hlength : ∀ c : Char, (String.ofList (List.replicate 316 c)).toList.length ≤ maxSize := by
    intro c
    rw [String.toList_ofList, length_replicate]
    decide
  refine compactForRequest_spec { toolBudget := 100 } (fun _ hm _ => ?_)
  rcases mem_cons.1 hm with rfl | hm
  · exact hlength 'a'
  rw [mem_singleton.1 hm]
  exact hlength 'b'

end DeterminFlow.Context
