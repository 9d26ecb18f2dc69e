/-
  Workflow.WrappedJson
  **JSON IN A FENCE OR IN PROSE.**

  A text that `json.dumps` wrote, in a Markdown fence or with prose around it.
  The passes give the value back when none of them finds anything to do inside
  the text; otherwise what is left of it reads as another value, or as none.
-/
import DeterminFlow.Workflow.JsonRepair

namespace DeterminFlow.Workflow.JsonOutput

open Library PyText JsonText List
open Library.JsonCodec

/-! ## A text in brackets with something around it -/

def Enclosed (text : Text) : Prop :=
  ∃ opening close inner, Pair opening close ∧ text = opening :: (inner ++ [close])

/-- `body` stands in the text, and no bracket opens before it. -/
def Around (body text : Text) : Prop :=
  ∃ before behind, NoOpening before ∧ text = before ++ (body ++ behind)

lemma Container.enclosed {text : Text} (h : Container text) : Enclosed text := by
  obtain ⟨opening, close, inner, hpair, heq, -⟩ := container_cases h
  exact ⟨opening, close, inner, hpair, heq⟩

lemma NoOpening.sublist {text other : Text} (h : NoOpening other) (hsub : text.Sublist other) :
    NoOpening text := fun c hc => h c (hsub.subset hc)

variable {c : Char} {body found : Text}

lemma dropWhile_stop {p : Char → Bool} (hc : p c = false) (before rest : Text) :
    (before ++ c :: rest).dropWhile p = before.dropWhile p ++ c :: rest := by
  induction before with
  | nil => rw [nil_append, dropWhile_nil, nil_append,
      dropWhile_cons_of_neg (by rw [hc]; exact Bool.false_ne_true)]
  | cons d before ih =>
    rw [cons_append, dropWhile_cons, dropWhile_cons]
    split
    · exact ih
    rfl

def stripEnd (text : Text) : Text := (text.reverse.dropWhile isSpace).reverse

lemma strip_around (h : Enclosed body) (before behind : Text) :
    strip (before ++ (body ++ behind)) = before.dropWhile isSpace ++ (body ++ stripEnd behind) := by
  obtain ⟨opening, close, inner, hpair, rfl⟩ := h
  have hfront := dropWhile_stop hpair.isSpace.1 before (inner ++ [close] ++ behind)
  have hreverse : (before.dropWhile isSpace ++ opening :: (inner ++ [close] ++ behind)).reverse
      = behind.reverse ++ close :: (before.dropWhile isSpace ++ opening :: inner).reverse := by
    simp only [reverse_append, reverse_cons, append_assoc, cons_append, nil_append]
  rw [strip, cons_append, hfront, hreverse, dropWhile_stop hpair.isSpace.2, stripEnd]
  simp only [reverse_append, reverse_cons, reverse_reverse, append_assoc, cons_append, nil_append]

lemma isPrefixOf_stop {c : Char} (rest : Text) : ∀ {name before : Text}, c ∉ name →
    name.isPrefixOf (before ++ c :: rest) = name.isPrefixOf before
  | [], _, _ => rfl
  | d :: name, [], h => by
      have hne : (d == c) = false := by
        rw [beq_eq_false_iff_ne]
        exact fun heq => h (heq ▸ mem_cons_self)
      show (d == c && name.isPrefixOf rest) = false
      rw [hne, Bool.false_and]
  | d :: name, e :: before, h => by
      rw [cons_append, List.isPrefixOf, List.isPrefixOf,
        isPrefixOf_stop rest (fun hmem => h (mem_cons_of_mem d hmem))]

lemma literal?_stop {name before rest : Text} (hc : c ∉ name)
    (h : literal? name (before ++ c :: rest) = some found) :
    found = before.drop name.length ++ c :: rest ∧ literal? name before = some (before.drop name.length) := by
  rw [literal?, isPrefixOf_stop rest hc] at h
  rw [literal?]
  split at h
  · rename_i hprefix
    have hle : name.length ≤ before.length := ( isPrefixOf_iff_prefix.1 hprefix).length_le
    rw [drop_append_of_le_length hle] at h
    rw [if_pos hprefix]
    exact ⟨(Option.some.inj h).symm, rfl⟩
  cases h

lemma before?_stop {mark front behind : Text} (hc : c ∉ mark)
    (h : before? mark (front ++ c :: behind) = some found) :
    ∃ kept, found = front ++ c :: kept := by
  rw [before?] at h
  split at h
  · rename_i hsuffix
    have hreverse : (front ++ c :: behind).reverse = behind.reverse ++ c :: front.reverse := by
      rw [reverse_append, reverse_cons, append_assoc, singleton_append]
    have hprefix : mark.reverse.isPrefixOf (front ++ c :: behind).reverse = true := hsuffix
    rw [hreverse, isPrefixOf_stop _ (fun hmem => hc (mem_reverse.1 hmem))] at hprefix
    have hle := ( isPrefixOf_iff_prefix.1 hprefix).length_le
    rw [length_reverse, length_reverse] at hle
    have hlength : (front ++ c :: behind).length - mark.length
        = (front ++ [c]).length + (behind.length - mark.length) := by
      simp only [length_append, length_cons, length_nil]
      omega
    have hsplit : front ++ c :: behind = (front ++ [c]) ++ behind := by
      rw [append_assoc, singleton_append]
    rw [hlength, hsplit, take_length_add_append] at h
    refine ⟨behind.take (behind.length - mark.length), ?_⟩
    rw [← Option.some.inj h, append_assoc, singleton_append]
  cases h

lemma Around.strip {body text : Text} (h : Enclosed body) (haround : Around body text) :
    Around body (strip text) := by
  obtain ⟨before, behind, hbefore, rfl⟩ := haround
  exact ⟨before.dropWhile isSpace, stripEnd behind,
    hbefore.sublist (dropWhile_sublist isSpace), strip_around h before behind⟩

lemma Pair.notMem {opening close : Char} (h : Pair opening close) :
    opening ∉ fenceMark ∧ close ∉ fenceMark ∧ opening ∉ "json".toList ∧ opening ∉ "JSON".toList
      ∧ close ≠ '\n' := by
  cases h <;> decide

lemma enclosed_append (opening close : Char) (inner behind : Text) :
    opening :: (inner ++ [close]) ++ behind = opening :: (inner ++ close :: behind) := by
  simp only [append_assoc, cons_append, nil_append]

lemma Around.literal? {text rest name : Text} (h : Enclosed body)
    (hname : ∀ opening close, Pair opening close → opening ∉ name) (haround : Around body text)
    (hrest : literal? name text = some rest) : Around body rest := by
  obtain ⟨before, behind, hbefore, rfl⟩ := haround
  obtain ⟨opening, close, _, hpair, rfl⟩ := h
  refine ⟨before.drop name.length, behind, hbefore.sublist (drop_sublist _ _), ?_⟩
  rw [enclosed_append] at hrest ⊢
  exact (literal?_stop (hname opening close hpair) hrest).1

lemma Around.dropLanguage {body text : Text} (h : Enclosed body) (haround : Around body text) :
    Around body (dropLanguage text) := by
  unfold JsonOutput.dropLanguage
  split
  · exact Around.literal? h (fun _ _ hpair => hpair.notMem.2.2.1) haround ‹_›
  cases hfound : JsonCodec.literal? "JSON".toList text with
  | none => exact haround
  | some => exact Around.literal? h (fun _ _ hpair => hpair.notMem.2.2.2.1) haround hfound

lemma Around.dropSpaces {text : Text} (h : Enclosed body) (haround : Around body text) :
    Around body (text.dropWhile isSpace) := by
  obtain ⟨before, behind, hbefore, rfl⟩ := haround
  obtain ⟨_, _, _, hpair, rfl⟩ := h
  exact ⟨before.dropWhile isSpace, behind, hbefore.sublist (dropWhile_sublist isSpace),
    dropWhile_stop hpair.isSpace.1 before _⟩

lemma Around.before? {text rest : Text} (h : Enclosed body) (haround : Around body text)
    (hrest : before? fenceMark text = some rest) : Around body rest := by
  obtain ⟨before, _, hbefore, rfl⟩ := haround
  obtain ⟨opening, close, inner, hpair, rfl⟩ := h
  have hsplit : ∀ tail : Text, before ++ (opening :: (inner ++ [close]) ++ tail)
      = (before ++ opening :: inner) ++ close :: tail := fun tail => by
    simp only [append_assoc, cons_append, nil_append]
  rw [hsplit] at hrest
  obtain ⟨tail, htail⟩ := before?_stop hpair.notMem.2.1 hrest
  exact ⟨before, tail, hbefore, by rw [hsplit, htail]⟩

lemma Around.dropLastBreak {body text : Text} (h : Enclosed body) (haround : Around body text) :
    Around body (dropLastBreak text) := by
  unfold JsonOutput.dropLastBreak
  split
  · rename_i hlast
    obtain ⟨before, behind, hbefore, rfl⟩ := haround
    obtain ⟨opening, close, inner, hpair, rfl⟩ := h
    cases behind with
    | nil =>
      have hend : before ++ (opening :: (inner ++ [close]) ++ [])
          = (before ++ opening :: inner) ++ [close] := by
        simp only [append_assoc, cons_append, append_nil]
      rw [hend, getLast?_concat] at hlast
      exact absurd (Option.some.inj hlast) hpair.notMem.2.2.2.2
    | cons d behind =>
      refine ⟨before, (d :: behind).dropLast, hbefore, ?_⟩
      rw [← append_assoc, dropLast_append_of_ne_nil (cons_ne_nil _ _), append_assoc]
  exact haround

lemma Around.fenceBody? {text group : Text} (h : Enclosed body) (haround : Around body text)
    (hgroup : fenceBody? text = some group) : Around body group := by
  simp only [JsonOutput.fenceBody?, Option.bind_eq_bind, Option.bind_eq_some_iff,
    Option.pure_def, Option.some.injEq] at hgroup
  obtain ⟨_, hrest, _, hinner, rfl⟩ := hgroup
  have hbehind := Around.literal? h (fun _ _ hpair => hpair.notMem.1) haround hrest
  have hbetween := Around.before? h hbehind hinner
  exact Around.dropLastBreak h (Around.dropSpaces h (Around.dropLanguage h hbetween))

/-! ## The lines of a text around a body -/

def lastLine : Text → Text
  | [] => []
  | c :: rest =>
    if rest.any isLineBreak then lastLine rest else if isLineBreak c then rest else c :: rest

lemma lastLine_eq {text : Text} (h : text.any isLineBreak = false) : lastLine text = text := by
  cases text with
  | nil => rfl
  | cons =>
    rw [any_cons, Bool.or_eq_false_iff] at h
    rw [lastLine, if_neg (by rw [h.2]; exact Bool.false_ne_true),
      if_neg (by rw [h.1]; exact Bool.false_ne_true)]

lemma splitLines_solid (hne : body ≠ []) (h : ∀ c ∈ body, isLineBreak c = false) (behind : Text) :
    splitLines (body ++ behind)
      = (body ++ (splitLines behind).headD []) :: (splitLines behind).tail := by
  induction body with
  | nil => exact absurd rfl hne
  | cons c rest ih =>
    have hc := h c mem_cons_self
    rw [cons_append, splitLines, if_neg (by rw [hc]; exact Bool.false_ne_true)]
    cases rest with
    | nil =>
      rw [nil_append]
      cases splitLines behind <;> rfl
    | cons =>
      rw [ih (cons_ne_nil _ _) (fun e he => h e (mem_cons_of_mem c he))]
      rfl

lemma splitLines_before {rest line : Text} {lines : List Text}
    (hlines : splitLines rest = line :: lines) (hhead : rest.head? ≠ some '\n') (before : Text) :
    ∃ closed : List Text, splitLines (before ++ rest) = closed ++ (lastLine before ++ line) :: lines
      ∧ (closed.flatMap id).Sublist before ∧ (closed = [] ↔ before.any isLineBreak = false) := by
  induction before with
  | nil => exact ⟨[], hlines, List.Sublist.slnil, iff_of_true rfl rfl⟩
  | cons c before ih =>
    obtain ⟨closed, hsplit, hsub, hnone⟩ := ih
    rw [cons_append, splitLines, any_cons]
    split
    · rename_i hbreak
      rw [hbreak, Bool.true_or]
      split
      · rename_i hpair
        have hfeed : (before ++ rest).head? = some '\n' :=
          of_decide_eq_true (Bool.and_eq_true_iff.1 hpair).2
        cases before with
        | nil => exact absurd hfeed hhead
        | cons d before =>
          have hd : d = '\n' := Option.some.inj hfeed
          have hany : (d :: before).any isLineBreak = true := by
            rw [hd]
            rfl
          refine ⟨closed, ?_, hsub.cons c, ?_⟩
          · have hlast : lastLine (c :: d :: before) = lastLine (d :: before) := if_pos hany
            rw [hsplit, hlast]
          rw [hnone, hany]
      refine ⟨[] :: closed, ?_, hsub.cons c, iff_of_false (cons_ne_nil _ _) (by decide)⟩
      rw [hsplit, lastLine]
      split
      · rfl
      rw [lastLine_eq (Bool.eq_false_iff.2 ‹_›)]
      rfl
    rename_i hbreak
    rw [Bool.eq_false_iff.2 hbreak, Bool.false_or]
    rw [hsplit]
    cases closed with
    | nil =>
      have hany := hnone.1 rfl
      refine ⟨[], ?_, nil_sublist _, iff_of_true rfl hany⟩
      rw [lastLine, if_neg (by rw [hany]; exact Bool.false_ne_true), if_neg hbreak,
        lastLine_eq hany]
      rfl
    | cons first closed =>
      have hany : before.any isLineBreak = true := by
        rw [← Bool.not_eq_false]
        exact fun hfalse => absurd (hnone.2 hfalse) (cons_ne_nil _ _)
      refine ⟨(c :: first) :: closed, ?_, hsub.cons_cons c,
        iff_of_false (cons_ne_nil _ _) (by rw [hany]; decide)⟩
      rw [lastLine, if_pos hany]
      rfl

lemma joinLines_append (closed lines : List Text) (line : Text) :
    joinLines (closed ++ line :: lines) = closed.flatMap (fun other => other ++ ['\n'])
      ++ (line ++ lines.flatMap (fun other => '\n' :: other)) := by
  induction closed with
  | nil => rfl
  | cons first closed ih =>
    have hjoin : ∀ others : List Text, others ≠ [] →
        joinLines (first :: others) = first ++ '\n' :: joinLines others := by
      intro others hne
      cases others with
      | nil => exact absurd rfl hne
      | cons => rfl
    rw [cons_append, hjoin _ (append_ne_nil_of_right_ne_nil _ (cons_ne_nil _ _)), ih, flatMap_cons]
    simp only [append_assoc, cons_append, nil_append]

def LinesSafe (before body : Text) : Prop :=
  (∀ c ∈ body, isLineBreak c = false)
    ∧ fenceMark.isPrefixOf ((lastLine (before.dropWhile isSpace)).dropWhile isSpace) = false

lemma startsFence_line (h : Enclosed body) (front behind : Text) :
    startsFence (front ++ (body ++ behind)) = fenceMark.isPrefixOf (front.dropWhile isSpace) := by
  rw [startsFence, strip_around h]
  obtain ⟨_, _, _, hpair, rfl⟩ := h
  exact isPrefixOf_stop _ hpair.notMem.1

lemma head_enclosed (h : Enclosed body) (behind : Text) : (body ++ behind).head? ≠ some '\n' := by
  obtain ⟨_, _, _, hpair, rfl⟩ := h
  cases hpair <;> exact fun heq => absurd (Option.some.inj heq) (by decide)

lemma enclosed_ne_nil (h : Enclosed body) : body ≠ [] := by
  obtain ⟨_, _, _, _, rfl⟩ := h
  exact cons_ne_nil _ _

lemma around_keptLines {before : Text} (h : Enclosed body) (hbefore : NoOpening before)
    (hsolid : ∀ c ∈ body, isLineBreak c = false)
    (hfence : fenceMark.isPrefixOf ((lastLine before).dropWhile isSpace) = false) (behind : Text) :
    Around body (joinLines
      ((splitLines (before ++ (body ++ behind))).filter (fun line => !startsFence line))) := by
  have hlines := splitLines_solid (enclosed_ne_nil h) hsolid behind
  obtain ⟨closed, hsplit, hsub, -⟩ := splitLines_before hlines (head_enclosed h behind) before
  have hkeep : (!startsFence (lastLine before ++ (body ++ (splitLines behind).headD []))) = true := by
    rw [startsFence_line h, hfence]
    rfl
  rw [hsplit, filter_append, filter_cons_of_pos (p := fun line => !startsFence line) hkeep,
    joinLines_append]
  refine ⟨(closed.filter (fun line => !startsFence line)).flatMap (fun other => other ++ ['\n'])
    ++ lastLine before, (splitLines behind).headD []
      ++ ((splitLines behind).tail.filter (fun line => !startsFence line)).flatMap
        (fun other => '\n' :: other), ?_, ?_⟩
  · intro c hc
    cases mem_append.1 hc with
    | inl hclosed =>
      obtain ⟨line, hline, hc⟩ := mem_flatMap.1 hclosed
      cases mem_append.1 hc with
      | inl hc =>
        exact hbefore c (hsub.subset (mem_flatMap.2 ⟨line, mem_of_mem_filter hline, hc⟩))
      | inr hc =>
        rw [mem_singleton.1 hc]
        decide
    | inr hlast =>
      have hsuffix : ∀ text : Text, (lastLine text).Sublist text := by
        intro text
        induction text with
        | nil => exact List.Sublist.slnil
        | cons d rest ih =>
          rw [lastLine]
          split
          · exact ih.cons d
          split
          · exact sublist_cons_self d rest
          exact .refl _
      exact hbefore c ((hsuffix before).subset hlast)
  simp only [append_assoc]

/-! ## What a damaged body has lost -/

def NoBracket (text : Text) : Prop := ∀ c ∈ text, isBracket c = false

lemma NoBracket.noOpening {text : Text} (h : NoBracket text) : NoOpening text := by
  intro c hc
  have hno := h c hc
  simp only [isBracket, Bool.or_eq_false_iff, beq_eq_false_iff_ne] at hno
  exact ⟨hno.1.1.1, hno.1.2⟩

lemma isCounted_of_isBracket (h : isBracket c = true) : isCounted c = true := by
  simp only [isBracket, Bool.or_eq_true, beq_iff_eq] at h
  rcases h with ((rfl | rfl) | rfl) | rfl <;> decide

lemma Pair.isBracket {opening close : Char} (h : Pair opening close) :
    isBracket opening = true ∧ isBracket close = true := by
  cases h <;> decide

lemma core_enclosed (h : Enclosed body) : 0 < total cost body := by
  obtain ⟨_, _, _, hpair, rfl⟩ := h
  have hopening := isCounted_of_isBracket hpair.isBracket.1
  rw [total_cons, cost, if_pos hopening]
  omega

lemma keptLines_lose {before : Text} (h : Enclosed body)
    (hcounted : ∀ c ∈ body, isLineBreak c = true → isCounted c = true)
    (hdamaged : (∀ c ∈ body, isLineBreak c = false) →
      fenceMark.isPrefixOf ((lastLine before).dropWhile isSpace) = true) (behind :
    Text) : ∃ left : Text, left.length < total cost body
      ∧ (core (joinLines ((splitLines (before ++ (body ++ behind))).filter
          (fun line => !startsFence line)))).Sublist (core before ++ (left ++ core behind)) := by
  by_cases hsolid : ∀ c ∈ body, isLineBreak c = false
  · -- the line of the body is dropped
    have hlines := splitLines_solid (enclosed_ne_nil h) hsolid behind
    obtain ⟨closed, hsplit, hsub, -⟩ := splitLines_before hlines (head_enclosed h behind) before
    have hdrop : ¬((!startsFence (lastLine before ++ (body ++ (splitLines behind).headD [])))
        = true) := by
      rw [startsFence_line h, hdamaged hsolid]
      exact Bool.false_ne_true
    have hbehind : ((splitLines behind).tail.flatMap id).Sublist behind := by
      have hall : ((splitLines behind).flatMap id).Sublist behind :=
        (splitLines_sublist behind).trans filter_sublist
      cases hlist : splitLines behind with
      | nil => exact nil_sublist _
      | cons =>
        rw [hlist, flatMap_cons] at hall
        exact (sublist_append_right _ _).trans hall
    refine ⟨[], core_enclosed h, ?_⟩
    rw [hsplit, filter_append,
      filter_cons_of_neg (p := fun line => !startsFence line) hdrop, core_joinLines,
      flatMap_append, core_append, nil_append]
    exact List.Sublist.append
      (core_sublist ((flatMap_filter_sublist closed _).trans hsub))
      (core_sublist ((flatMap_filter_sublist _ _).trans hbehind))
  -- a break of the body is lost
  have hbreak : ∃ c ∈ body, isLineBreak c = true := by
    by_contra hnone
    apply hsolid
    intro c hc
    rw [← Bool.not_eq_true]
    exact fun htrue => hnone ⟨c, hc, htrue⟩
  obtain ⟨c, hc, hline⟩ := hbreak
  have hcore : ∀ text : Text, core (text.filter (fun c => !isLineBreak c))
      = (core text).filter (fun c => !isLineBreak c) := fun text => by
    rw [core, core, filter_filter, filter_filter]
    exact filter_congr (fun _ _ => Bool.and_comm _ _)
  refine ⟨(core body).filter (fun c => !isLineBreak c), ?_, ?_⟩
  · rw [total_cost, length_filter_lt_length_iff_exists]
    refine ⟨c, mem_filter.2 ⟨hc, hcounted c hc hline⟩, ?_⟩
    rw [hline]
    exact Bool.false_ne_true
  have hlines := core_someLines (before ++ (body ++ behind)) (fun line => !startsFence line)
  rw [hcore, core_append, core_append, filter_append, filter_append] at hlines
  exact hlines.trans (List.Sublist.append filter_sublist
    (List.Sublist.append (.refl _) filter_sublist))

lemma sublist_middle {opening close : Char} {inner left middle right : Text}
    (hopening : isBracket opening = true) (hclose : isBracket close = true)
    (hleft : NoBracket left) (hright : NoBracket right)
    (h : (opening :: (inner ++ [close])).Sublist (left ++ (middle ++ right))) :
    (opening :: (inner ++ [close])).Sublist middle := by
  obtain ⟨first, _, heq, hfirst, hrest⟩ := sublist_append_iff.1 h
  cases first with
  | cons c =>
    have hc : opening = c := (cons.inj heq).1
    have hno := hleft c (hfirst.subset mem_cons_self)
    rw [← hc, hopening] at hno
    cases hno
  | nil =>
    rw [nil_append] at heq
    rw [← heq] at hrest
    obtain ⟨_, last, heq', hkept, hlast⟩ := sublist_append_iff.1 hrest
    cases hend : last.getLast? with
    | none =>
      rw [getLast?_eq_none_iff.1 hend, append_nil] at heq'
      rw [heq']
      exact hkept
    | some c =>
      have hne : last ≠ [] := by
        intro hnil
        rw [hnil] at hend
        cases hend
      have hclosing : (opening :: (inner ++ [close])).getLast? = some close := by
        rw [← cons_append, getLast?_concat]
      rw [heq', getLast?_append_of_ne_nil _ hne, hend] at hclosing
      have hno := hright c (hlast.subset (mem_of_getLast? hend))
      rw [Option.some.inj hclosing, hclose] at hno
      cases hno

section
variable {F : Type} {floats : FloatCodec F} {v : PyJson F} {right middle body : Text}

lemma total_le_of_loads (price : Price) (hlawful : Lawful floats v)
    (hcontainer : isContainer v = true) {text left : Text} (hspelled : Spelled price text)
    (h : loads floats text = some v) (hleft : NoBracket left) (hright : NoBracket right)
    (hcore : (core text).Sublist (left ++ (middle ++ right))) :
    total price.of (dumps floats v) ≤ middle.length := by
  have hweigh := weigh_le_of_loads price hspelled h
  rw [weigh_dumps price floats v hlawful, total_cost] at hweigh
  obtain ⟨before, opening, inner, close, after, heq, hbefore, hafter, hopening, hclose⟩ :=
    bounds_of_loads h hcontainer
  have hblank : ∀ blank : Text, Blank blank → core blank = [] := by
    intro blank hblank
    apply filter_eq_nil_iff.2
    intro c hc
    simp [isCounted, hblank c hc]
  have hcounted : ∀ (c : Char) (rest : Text), isBracket c = true →
      core (c :: rest) = c :: core rest := fun c rest hc =>
    filter_cons_of_pos (isCounted_of_isBracket hc)
  have hshape : core text = opening :: (core inner ++ [close]) := by
    rw [heq, core_append, hblank before hbefore, nil_append, hcounted _ _ hopening,
      core_append, hcounted _ _ hclose, hblank after hafter]
  rw [hshape] at hcore
  have hmiddle := (sublist_middle hopening hclose hleft hright hcore).length_le
  rw [← hshape] at hmiddle
  omega

lemma isBracket_normalizeQuote (c : Char) : isBracket (normalizeQuote c) = isBracket c := by
  unfold normalizeQuote
  have hdouble : ∀ d ∈ ['“', '”', '＂'], isBracket '"' = isBracket d := by decide
  have hsingle : ∀ d ∈ ['‘', '’'], isBracket '\x27' = isBracket d := by decide
  split
  · exact hdouble c ‹_›
  split
  · exact hsingle c ‹_›
  rfl

lemma NoBracket.normalized {text : Text} (h : NoBracket text) :
    NoBracket (text.map normalizeQuote) := by
  intro _ hc
  obtain ⟨d, hd, rfl⟩ := mem_map.1 hc
  rw [isBracket_normalizeQuote]
  exact h d hd

lemma NoBracket.core {text : Text} (h : NoBracket text) : NoBracket (core text) :=
  fun c hc => h c (mem_of_mem_filter hc)

lemma total_le_of_repaired (price : Price) (hlawful : Lawful floats v)
    (hcontainer : isContainer v = true) {text left : Text}
    (hspelled : Spelled price (safeRepairJsonText floats text).1)
    (h : loads floats (safeRepairJsonText floats text).1 = some v) (hleft : NoBracket left)
    (hright : NoBracket right)
    (hcore : (core (stripMarkdownFence (strip text))).Sublist (left ++ (middle ++ right))) :
    total price.of (dumps floats v) ≤ middle.length := by
  have hsub := (core_safeRepair floats text).trans (hcore.map normalizeQuote)
  rw [map_append, map_append] at hsub
  have hle := total_le_of_loads price hlawful hcontainer hspelled h hleft.normalized
    hright.normalized hsub
  rw [length_map] at hle
  exact hle

def curlyPrice : Price where
  of c := cost c + if isCurly c then 1 else 0
  ascii c hc := by
    have hlarge : ∀ d ∈ ['“', '”', '＂', '‘', '’'], 128 ≤ d.toNat := by decide
    have hno : isCurly c = false := decide_eq_false (fun hmem => by
      have hle := hlarge c hmem
      omega)
    rw [hno]
    rfl
  le_two c := by
    have hone := cost_le_one c
    split <;> omega

lemma total_curlyPrice (text : Text) :
    total curlyPrice.of text = total cost text + text.countP isCurly := by
  induction text with
  | nil => rfl
  | cons c rest ih =>
    rw [total_cons, total_cons, ih, countP_cons]
    show cost c + (if isCurly c = true then 1 else 0) + _ = _
    omega

lemma spelled_curlyPrice {text : Text} (h : NoCurly text) : Spelled curlyPrice text := by
  intro c hc
  show cost c + (if isCurly c = true then 1 else 0) ≤ cost c
  rw [h c hc]
  exact le_rfl

/-! ### Written texts have no control characters -/

def Printable (text : Text) : Prop := ∀ c ∈ text, 0x20 ≤ c.toNat

instance (text : Text) : Decidable (Printable text) :=
  inferInstanceAs (Decidable (∀ c ∈ text, 0x20 ≤ c.toNat))

lemma Printable.append {text other : Text} (h : Printable text) (h' : Printable other) :
    Printable (text ++ other) := fun c hc => (mem_append.1 hc).elim (h c) (h' c)

lemma Printable.cons {c : Char} {text : Text} (hc : 0x20 ≤ c.toNat) (h : Printable text) :
    Printable (c :: text) := forall_mem_cons.2 ⟨hc, h⟩

lemma printable_digits {text : Text} (h : ∀ c ∈ text, c.isDigit = true) : Printable text := by
  intro c hc
  have hbounds := bounds_of_isDigit (h c hc)
  omega

lemma printable_number {text : Text} (h : Number text) : Printable text := by
  cases h with
  | @parts sign whole fraction exponent hsign hwhole hfraction hexponent =>
    have hsigned : ∀ sign : Text, sign = [] ∨ sign = ['+'] ∨ sign = ['-'] → Printable sign := by
      intro sign hsign
      rcases hsign with rfl | rfl | rfl <;> decide
    have hwhole' : Printable whole := by
      cases hwhole with
      | zero => exact printable_digits (by decide)
      | digits hc _ hrest => exact printable_digits (forall_mem_cons.2 ⟨hc, hrest⟩)
    have hfraction' : Printable fraction := by
      cases hfraction with
      | none => exact nofun
      | digits hd => exact (printable_digits hd.digit).cons (by decide)
    have hexponent' : Printable exponent := by
      cases hexponent with
      | none => exact nofun
      | digits he hesign hd =>
        apply ((hsigned _ hesign).append (printable_digits hd.digit)).cons
        cases he with
        | inl he => rw [he]; decide
        | inr he => rw [he]; decide
    exact (hsigned _ (hsign.imp id .inr)).append
      (hwhole'.append (hfraction'.append hexponent'))

lemma printable_stringText (text : Text) : Printable (stringText text) := by
  have hdigit : ∀ d : Fin 16, 0x20 ≤ (Nat.digitChar d.val).toNat := by decide
  have hletters : ∀ letter ∈ escapeLetters, 0x20 ≤ letter.toNat := by decide
  have hchar : ∀ c : Char, Printable (escapeChar c) := by
    intro c
    have hnil : Printable [] := nofun
    rcases escapeChar_cases c with ⟨letter, hletter, heq⟩ | ⟨_, heq⟩ | ⟨hplain, heq⟩
    · rw [heq]
      exact (hnil.cons (hletters letter hletter)).cons (by decide)
    · rw [heq]
      exact ((((((hnil.cons (hdigit ⟨c.toNat % 16, by omega⟩)).cons
        (hdigit ⟨c.toNat / 16, by omega⟩)).cons (by decide)).cons (by decide)).cons
        (by decide)).cons (by decide))
    rw [heq]
    simp only [isPlain, Bool.and_eq_true, decide_eq_true_eq] at hplain
    exact hnil.cons hplain.2
  have hbody : Printable (text.flatMap escapeChar) := by
    intro c hc
    obtain ⟨d, -, hd⟩ := mem_flatMap.1 hc
    exact hchar d c hd
  exact (hbody.append (by decide : Printable ['"'])).cons (by decide)

mutual

lemma printable_dumps (floats : FloatCodec F) : ∀ v : PyJson F, Lawful floats v →
    Printable (dumps floats v)
  | .null, _ => by rw [dumps]; decide
  | .bool true, _ => by rw [dumps]; decide
  | .bool false, _ => by rw [dumps]; decide
  | .int i, _ => by rw [dumps]; exact printable_number (number_intText i)
  | .float f, h => by
      rw [Lawful] at h
      rw [dumps]
      exact printable_number (floats.text_shape f h).number
  | .str s, _ => by rw [dumps]; exact printable_stringText _
  | .list [], _ => by rw [dumps]; decide
  | .list (x :: rest), h => by
      rw [Lawful, AllLawful] at h
      rw [dumps]
      exact ((printable_dumps floats x h.1).append ((printable_dumpsRest floats rest h.2).append
        (by decide))).cons (by decide)
  | .dict [], _ => by rw [dumps]; decide
  | .dict ((key, x) :: rest), h => by
      rw [Lawful, LawfulEntries] at h
      rw [dumps]
      exact ((printable_stringText _).append (Printable.append (by decide)
        ((printable_dumps floats x h.2.1).append ((printable_dumpsEntries floats rest h.2.2).append
          (by decide))))).cons (by decide)

lemma printable_dumpsRest (floats : FloatCodec F) : ∀ items : List (PyJson F),
    AllLawful floats items → Printable (dumpsRest floats items)
  | [], _ => by rw [dumpsRest]; exact nofun
  | x :: rest, h => by
      rw [AllLawful] at h
      rw [dumpsRest]
      exact Printable.append (by decide)
        ((printable_dumps floats x h.1).append (printable_dumpsRest floats rest h.2))

lemma printable_dumpsEntries (floats : FloatCodec F) : ∀ entries : List (String × PyJson F),
    LawfulEntries floats entries → Printable (dumpsEntries floats entries)
  | [], _ => by rw [dumpsEntries]; exact nofun
  | (key, x) :: rest, h => by
      rw [LawfulEntries] at h
      rw [dumpsEntries]
      exact Printable.append (by decide) ((printable_stringText _).append
        (Printable.append (by decide) ((printable_dumps floats x h.1).append
          (printable_dumpsEntries floats rest h.2))))

end

lemma isCounted_lineBreak (hlawful : Lawful floats v) :
    ∀ c ∈ dumps floats v, isLineBreak c = true → isCounted c = true := by
  intro c hc hbreak
  have hprintable := printable_dumps floats v hlawful c hc
  have hbreaks : ∀ d ∈ ['\n', '\x0b', '\x0c', '\r', '\x1c', '\x1d', '\x1e', '\u0085', '\u2028',
      '\u2029'], 0x20 ≤ d.toNat → isCounted d = true := by decide
  exact hbreaks c (of_decide_eq_true hbreak) hprintable

/-! ## The two wrappings -/

def Clean (body : Text) : Prop := NoCurly body ∧ removeCommas false body = body

def ReadsAs (result : JsonValidationResult F) (v : PyJson F) : Prop :=
  result.success = true ∧ result.data = some v

lemma readsAs_iff (text : Text) : ReadsAs (validateAndFormatJson floats true text) v
    ↔ loads floats text = some v
      ∨ (loads floats text = none ∧ loads floats (safeRepairJsonText floats text).1 = some v) := by
  unfold ReadsAs validateAndFormatJson
  cases hloads : loads floats text with
  | some => simp [validResult]
  | none =>
    simp only [if_true]
    cases hrepaired : loads floats (safeRepairJsonText floats text).1 with
    | some => simp [validResult]
    | none => simp [failedResult]

lemma NoOpening.normalized {text : Text} (h : NoOpening text) :
    NoOpening (text.map normalizeQuote) := by
  intro _ hc
  obtain ⟨d, hd, rfl⟩ := mem_map.1 hc
  unfold normalizeQuote
  split
  · decide
  split
  · decide
  exact h d hd

lemma normalizeQuotes_around {before behind : Text} (h : NoCurly body) :
    normalizeQuotes (before ++ (body ++ behind))
      = before.map normalizeQuote ++ (body ++ behind.map normalizeQuote) := by
  have hself := normalizeQuotes_eq h
  rw [normalizeQuotes] at hself ⊢
  rw [map_append, map_append, hself]

lemma fourPasses_clean {text : Text} (hbody : Container body) (hclean : Clean body)
    (haround : Around body (stripMarkdownFence (strip text))) : fourPasses text = body := by
  obtain ⟨_, _, hbefore, heq⟩ := haround
  rw [fourPasses, heq, normalizeQuotes_around hclean.1, extractJsonBody_container hbefore.normalized hbody,
    removeTrailingCommas_eq hclean.2]

lemma loads_repaired {text : Text} (hlawful : Lawful floats v) (hcontainer : isContainer v = true)
    (hclean : Clean (dumps floats v))
    (haround : Around (dumps floats v) (stripMarkdownFence (strip text))) :
    loads floats (safeRepairJsonText floats text).1 = some v := by
  have hread : loads floats (dumps floats v) = some v := by
    have hbare := loads_dumps floats hlawful blank_nil blank_nil
    rw [nil_append, append_nil] at hbare
    exact hbare
  have hpasses := fourPasses_clean (dumps_container floats hlawful hcontainer) hclean haround
  have htry : tryLoads floats (dumps floats v) = true := by
    rw [tryLoads, hread]
    rfl
  simp only [safeRepairJsonText, hpasses, htry, if_true]
  exact hread

lemma clean_of_repaired {text left : Text} (hlawful : Lawful floats v)
    (hcontainer : isContainer v = true)
    (h : loads floats (safeRepairJsonText floats text).1 = some v) (hleft : NoBracket left)
    (hright : NoBracket right) (hcore : (core (stripMarkdownFence (strip text))).Sublist
      (left ++ (core (dumps floats v) ++ right)))
    (haround : NoCurly (dumps floats v) → Around (dumps floats v) (stripMarkdownFence (strip text))) :
    Clean (dumps floats v) := by
  have hcurly : NoCurly (dumps floats v) := by
    have hle := total_le_of_repaired curlyPrice hlawful hcontainer
      (spelled_curlyPrice (noCurly_final floats text)) h hleft hright hcore
    rw [total_curlyPrice, ← total_cost] at hle
    have hzero : (dumps floats v).countP isCurly = 0 := by omega
    intro c hc
    rw [← Bool.not_eq_true]
    exact countP_eq_zero.1 hzero c hc
  refine ⟨hcurly, ?_⟩
  by_contra hcommas
  -- the text that is left of the body costs less than the body
  have hcontainerText := dumps_container floats hlawful hcontainer
  obtain ⟨_, _, hbefore, heq⟩ := haround hcurly
  have hpasses : fourPasses text = removeTrailingCommas (dumps floats v) := by
    rw [fourPasses, heq, normalizeQuotes_around hcurly,
      extractJsonBody_container hbefore.normalized hcontainerText]
  have hlt := removeTrailingCommas_lt hcommas
  have hfinal := core_final floats text
  rw [hpasses] at hfinal
  have hle := total_le_of_loads plainPrice hlawful hcontainer (spelled_plainPrice _) h
    (fun c hc => absurd hc not_mem_nil) (fun c hc => absurd hc not_mem_nil)
    (show (core (safeRepairJsonText floats text).1).Sublist
      ([] ++ (core (removeTrailingCommas (dumps floats v)) ++ [])) by
        rw [nil_append, append_nil]
        exact hfinal)
  rw [← total_cost] at hle
  have hsame : total plainPrice.of (dumps floats v) = total cost (dumps floats v) := rfl
  omega

/-! ### The fence -/

def fenced (before body after : Text) : Text :=
  fenceMark ++ ("json".toList ++ (before ++ (body ++ (after ++ fenceMark))))

lemma loads_fenced (before body after : Text) : loads floats (fenced before body after) = none := by
  have hscalar : ∀ rest : Text, readScalar floats ('\x60' :: rest) = none := fun rest => rfl
  have hskip : skipBlank (fenced before body after) = fenced before body after := rfl
  have hcons : fenced before body after = '\x60' :: (fenced before body after).tail := rfl
  rw [loads, hskip, hcons, readValue, if_neg (by decide), if_neg (by decide), if_neg (by decide),
    hscalar]

lemma stripMarkdownFence_fenced {before after : Text} (h : Enclosed body)
    (hbefore : ∀ c ∈ before, isSpace c = true) (hafter : ∀ c ∈ after, isSpace c = true) :
    stripMarkdownFence (strip (fenced before body after)) = body := by
  have hends : (∀ c ∈ body.head?, isSpace c = false) ∧ (∀ c ∈ body.getLast?, isSpace c = false) := by
    obtain ⟨_, _, _, hpair, rfl⟩ := h
    constructor
    · intro c hc
      rw [← Option.some.inj hc]
      exact hpair.isSpace.1
    intro c hc
    rw [← cons_append, getLast?_concat] at hc
    rw [← Option.some.inj hc]
    exact hpair.isSpace.2
  have hinner : fenced before body after
      = (fenceMark ++ ("json".toList ++ (before ++ (body ++ after)))) ++ fenceMark := by
    simp only [fenced, append_assoc]
  have hstrip : strip (fenced before body after) = fenced before body after := by
    apply strip_eq_self
    · intro c hc
      rw [← Option.some.inj hc]
      rfl
    intro c hc
    rw [hinner, getLast?_append_of_ne_nil _ (by decide)] at hc
    rw [← Option.some.inj hc]
    rfl
  have hmark : literal? fenceMark (fenced before body after)
      = some ("json".toList ++ (before ++ (body ++ (after ++ fenceMark)))) := rfl
  have hclosing : before? fenceMark ("json".toList ++ (before ++ (body ++ (after ++ fenceMark))))
      = some ("json".toList ++ (before ++ (body ++ after))) := by
    have hsplit : "json".toList ++ (before ++ (body ++ (after ++ fenceMark)))
        = ("json".toList ++ (before ++ (body ++ after))) ++ fenceMark := by
      simp only [append_assoc]
    have hsuffix : fenceMark.isSuffixOf
        (("json".toList ++ (before ++ (body ++ after))) ++ fenceMark) = true :=
      isSuffixOf_iff_suffix.2 (suffix_append _ _)
    rw [hsplit, before?, if_pos hsuffix, length_append, Nat.add_sub_cancel, take_left]
  have hlanguage : dropLanguage ("json".toList ++ (before ++ (body ++ after)))
      = before ++ (body ++ after) := rfl
  have hspaces : (before ++ (body ++ after)).dropWhile isSpace = body ++ after := by
    rw [dropWhile_append_of_pos hbefore]
    cases hbody : body with
    | nil => exact absurd hbody (enclosed_ne_nil h)
    | cons c =>
      have hc := hends.1 c (by rw [hbody]; rfl)
      exact dropWhile_cons_of_neg (by rw [hc]; exact Bool.false_ne_true)
  have hbreak : ∃ spaces, (∀ c ∈ spaces, isSpace c = true)
      ∧ dropLastBreak (body ++ after) = body ++ spaces := by
    rw [dropLastBreak]
    split
    · rename_i hlast
      cases after with
      | nil =>
        rw [append_nil] at hlast
        have hno := hends.2 '\n' hlast
        cases hno
      | cons c after =>
        refine ⟨(c :: after).dropLast, fun d hd => hafter d (dropLast_subset _ hd), ?_⟩
        rw [dropLast_append_of_ne_nil (cons_ne_nil _ _)]
    exact ⟨after, hafter, rfl⟩
  obtain ⟨spaces, hall, hdropped⟩ := hbreak
  have hgroup : fenceBody? (fenced before body after) = some (body ++ spaces) := by
    simp only [fenceBody?, hmark, hclosing, hlanguage, hspaces, hdropped, Option.bind_eq_bind,
      Option.bind_some, Option.pure_def]
  rw [stripMarkdownFence, hstrip, hstrip, hgroup]
  exact strip_append hends.1 hends.2 (enclosed_ne_nil h) hall

lemma fenced_iff (hlawful : Lawful floats v) (hcontainer : isContainer v = true)
    {before after : Text} (hbefore : ∀ c ∈ before, isSpace c = true)
    (hafter : ∀ c ∈ after, isSpace c = true) :
    ReadsAs (validateAndFormatJson floats true (fenced before (dumps floats v) after)) v
      ↔ Clean (dumps floats v) := by
  have henclosed := Container.enclosed (dumps_container floats hlawful hcontainer)
  have hfence := stripMarkdownFence_fenced henclosed hbefore hafter
  have haround : Around (dumps floats v)
      (stripMarkdownFence (strip (fenced before (dumps floats v) after))) :=
    ⟨[], [], fun c hc => absurd hc not_mem_nil, by
      rw [hfence, nil_append, append_nil]⟩
  rw [readsAs_iff, loads_fenced]
  constructor
  · intro h
    cases h with
    | inl h => cases h
    | inr h =>
      apply clean_of_repaired hlawful hcontainer h.2
        (fun c hc => absurd hc not_mem_nil) (fun c hc => absurd hc not_mem_nil) _
        (fun _ => haround)
      rw [hfence, nil_append, append_nil]
  exact fun hclean => .inr ⟨rfl, loads_repaired hlawful hcontainer hclean haround⟩

/-! ### Prose -/

/-- The fence pass leaves the body: all of the text is a fence, or the lines of
the body are safe. -/
def FenceSafe (before body after : Text) : Prop :=
  (fenceBody? (strip (before ++ (body ++ after)))).isSome = true ∨ LinesSafe before body

lemma stripMarkdownFence_around {before after : Text} (h : Enclosed body)
    (hbefore : NoOpening before) (hsafe : FenceSafe before body after) :
    Around body (stripMarkdownFence (strip (before ++ (body ++ after)))) := by
  have hself : Around body (strip (before ++ (body ++ after))) :=
    Around.strip h ⟨before, after, hbefore, rfl⟩
  rw [stripMarkdownFence, strip_strip]
  cases hgroup : fenceBody? (strip (before ++ (body ++ after))) with
  | some => exact Around.strip h (Around.fenceBody? h hself hgroup)
  | none =>
    cases hsafe with
    | inl hfence =>
      rw [hgroup] at hfence
      cases hfence
    | inr hlines =>
      apply Around.strip h
      rw [strip_around h]
      exact around_keptLines h (hbefore.sublist (dropWhile_sublist isSpace)) hlines.1
        hlines.2 _

lemma core_stripMarkdownFence (text : Text) :
    (core (stripMarkdownFence (strip text))).Sublist (core text) := by
  have hstrip := core_sublist (strip_sublist text)
  have hgroup : ∀ group, fenceBody? (strip text) = some group →
      (core group).Sublist (core (strip text)) := by
    intro group h
    simp only [fenceBody?, Option.bind_eq_bind, Option.bind_eq_some_iff, Option.pure_def,
      Option.some.injEq] at h
    obtain ⟨rest, hrest, inner, hinner, rfl⟩ := h
    have hliteral : ∀ {name text found : Text}, literal? name text = some found →
        found.Sublist text := by
      intro name text found hfound
      rw [eq_of_literal? hfound]
      exact sublist_append_right _ _
    have hbefore : inner.Sublist rest := by
      rw [before?] at hinner
      split at hinner
      · rw [← Option.some.inj hinner]
        exact take_sublist _ _
      cases hinner
    have hlanguage : (dropLanguage inner).Sublist inner := by
      unfold dropLanguage
      split
      · exact hliteral ‹_›
      cases hname : literal? "JSON".toList inner with
      | none => exact .refl _
      | some => exact hliteral hname
    have hbreak : ∀ text : Text, (dropLastBreak text).Sublist text := by
      intro text
      unfold dropLastBreak
      split
      · exact dropLast_sublist _
      exact .refl _
    exact core_sublist ((hbreak _).trans ((dropWhile_sublist isSpace).trans
      (hlanguage.trans (hbefore.trans (hliteral hrest)))))
  rw [stripMarkdownFence, strip_strip]
  cases hbody : fenceBody? (strip text) with
  | some group =>
    exact (core_sublist (strip_sublist group)).trans ((hgroup group hbody).trans hstrip)
  | none =>
    exact (core_sublist (strip_sublist _)).trans ((core_someLines (strip text) _).trans
      ((core_sublist filter_sublist).trans hstrip))

lemma eq_of_brackets {left : Text} {c d : Char} {rest others : Text} (hleft : NoBracket left)
    (hright : NoBracket right) (hc : isBracket c = true) (hd : isBracket d = true)
    (h : left ++ c :: rest = right ++ d :: others) : left = right := by
  have htake : ∀ (text : Text) (e : Char) (tail : Text), NoBracket text → isBracket e = true →
      (text ++ e :: tail).takeWhile (fun x => !isBracket x) = text := by
    intro text e tail hno he
    rw [takeWhile_append_of_pos (fun x hx => by rw [hno x hx]; rfl),
      takeWhile_cons_of_neg (by rw [he]; exact Bool.false_ne_true), append_nil]
  rw [← htake left c rest hleft hc, h, htake right d others hright hd]

lemma blank_of_loads {before after : Text} (hlawful : Lawful floats v)
    (hcontainer : isContainer v = true) (hbefore : NoBracket before) (hafter : NoBracket after)
    (h : loads floats (before ++ (dumps floats v ++ after)) = some v) :
    Blank before ∧ Blank after := by
  obtain ⟨_, _, _, hpair, hbody⟩ :=
    Container.enclosed (dumps_container floats hlawful hcontainer)
  obtain ⟨left, _, _, _, right, heq, hleft, hright, hopening', hclose'⟩ :=
    bounds_of_loads h hcontainer
  have hquiet : ∀ text : Text, Blank text → NoBracket text := by
    intro text hblank c hc
    have hc := hblank c hc
    simp only [isBlank, Bool.or_eq_true, beq_iff_eq] at hc
    rcases hc with ((rfl | rfl) | rfl) | rfl <;> decide
  have hfront : before = left := by
    rw [hbody, cons_append] at heq
    exact eq_of_brackets hbefore (hquiet left hleft) hpair.isBracket.1 hopening' heq
  have hback : after.reverse = right.reverse := by
    have hreverse := congrArg List.reverse heq
    simp only [hbody, reverse_append, reverse_cons, append_assoc, cons_append,
      nil_append] at hreverse
    exact eq_of_brackets (fun c hc => hafter c (mem_reverse.1 hc))
      (fun c hc => hquiet right hright c (mem_reverse.1 hc)) hpair.isBracket.2 hclose' hreverse
  rw [hfront, reverse_inj.1 hback]
  exact ⟨hleft, hright⟩

/-- **In prose**: the value is given back if and only if the prose is blank, or
the whole is no JSON text, the fence pass leaves the body and the body is
clean. -/
theorem in_prose_iff (hlawful : Lawful floats v) (hcontainer : isContainer v = true)
    {before after : Text} (hbefore : NoBracket before) (hafter : NoBracket after) :
    ReadsAs (validateAndFormatJson floats true (before ++ (dumps floats v ++ after))) v
      ↔ (Blank before ∧ Blank after)
        ∨ (loads floats (before ++ (dumps floats v ++ after)) = none
          ∧ Clean (dumps floats v) ∧ FenceSafe before (dumps floats v) after) := by
  have henclosed := Container.enclosed (dumps_container floats hlawful hcontainer)
  rw [readsAs_iff]
  constructor
  · intro h
    cases h with
    | inl h => exact .inl (blank_of_loads hlawful hcontainer hbefore hafter h)
    | inr h =>
      have hcore := core_stripMarkdownFence (before ++ (dumps floats v ++ after))
      rw [core_append, core_append] at hcore
      have hsafe : FenceSafe before (dumps floats v) after := by
        by_contra hdamaged
        have hgroup : fenceBody? (strip (before ++ (dumps floats v ++ after))) = none := by
          rw [← Option.not_isSome_iff_eq_none]
          exact fun hsome => hdamaged (.inl hsome)
        have hlines : (∀ c ∈ dumps floats v, isLineBreak c = false) → fenceMark.isPrefixOf
            ((lastLine (before.dropWhile isSpace)).dropWhile isSpace) = true := by
          intro hsolid
          rw [← Bool.not_eq_false]
          exact fun hfence => hdamaged (.inr ⟨hsolid, hfence⟩)
        obtain ⟨left, _, hsub⟩ := keptLines_lose henclosed
          (isCounted_lineBreak hlawful) hlines (stripEnd after)
        have hpass : (core (stripMarkdownFence (strip (before ++ (dumps floats v ++ after))))).Sublist
            (core (before.dropWhile isSpace) ++ (left ++ core (stripEnd after))) := by
          rw [stripMarkdownFence, strip_strip, hgroup, strip_around henclosed]
          exact (core_sublist (strip_sublist _)).trans hsub
        have hend : NoBracket (stripEnd after) := by
          intro c hc
          rw [stripEnd, mem_reverse] at hc
          exact hafter c (mem_reverse.1 ((dropWhile_sublist isSpace).subset hc))
        have hstart : NoBracket (before.dropWhile isSpace) :=
          fun c hc => hbefore c ((dropWhile_sublist isSpace).subset hc)
        have hle := total_le_of_repaired plainPrice hlawful hcontainer (spelled_plainPrice _) h.2
          hstart.core hend.core hpass
        have hsame : total plainPrice.of (dumps floats v) = total cost (dumps floats v) := rfl
        omega
      refine .inr ⟨h.1, ?_, hsafe⟩
      exact clean_of_repaired hlawful hcontainer h.2 hbefore.core hafter.core hcore
        (fun _ => stripMarkdownFence_around henclosed hbefore.noOpening hsafe)
  intro h
  cases h with
  | inl h => exact .inl (loads_dumps floats hlawful h.1 h.2)
  | inr h =>
    exact .inr ⟨h.1, loads_repaired hlawful hcontainer h.2.1
      (stripMarkdownFence_around henclosed hbefore.noOpening h.2.2)⟩

end

/-! ## Strings the passes change -/

def noFloats : FloatCodec Unit where
  text _ := "NaN".toList
  ofText _ := ()
  nan := ()
  inf := ()
  negInf := ()
  finite _ := false
  text_shape _ h := by cases h
  ofText_text _ h := by cases h

def oneString (s : String) : PyJson Unit := .list [.str s]

lemma lawful_oneString (s : String) : Lawful noFloats (oneString s) := by
  simp only [oneString, Lawful, AllLawful, and_self]

def writtenData (result : JsonValidationResult Unit) : Option String :=
  result.data.map (fun v => String.ofList (dumps noFloats v))

end DeterminFlow.Workflow.JsonOutput
