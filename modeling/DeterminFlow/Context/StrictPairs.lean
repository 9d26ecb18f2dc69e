/-
  Context.StrictPairs
  **THE CLEANING BEFORE EVERY REQUEST.**

  A provider wants the results of a call right behind it.  The strict cleaning
  scans the tool messages behind each calling message: when they answer all
  its ids, those that do stay; otherwise the message loses its calls.  Every
  other tool message goes.

  A list of this form is a list of blocks, and the cleaning makes it so from
  any list.  It reads ids as a set: two results with one id in one block both
  stay, and an empty id is never answered.
-/
import DeterminFlow.Context.Trimming

namespace DeterminFlow.Context

open List

/-! ## The cleaning -/

def toolRun (rest : List Message) : List Message := rest.takeWhile (·.role = .tool)

/-- `tc_ids_needed`; a missing id counts as an empty one. -/
def idsNeeded (m : Message) : List String := m.toolCalls.map (·.id)

/-- `tcid and tcid in tc_ids_needed`. -/
def answersOne (needed : List String) (r : Message) : Bool :=
  r.toolCallId != "" && needed.contains r.toolCallId

/-- `tc_ids_found == tc_ids_needed`. -/
def allFound (m : Message) (rest : List Message) : Bool :=
  let found := ((toolRun rest).filter (answersOne (idsNeeded m))).map (·.toolCallId)
  (idsNeeded m).all (fun id => found.contains id)

/-- What the first pass notes of a message. -/
inductive Mark where
  | keep
  /-- A tool message that is not in `valid_tool_indices`. -/
  | drop
  /-- A message in `strip_tool_calls_at`. -/
  | strip
  deriving DecidableEq

/-- The first pass.  `valid` are the ids that are answered in the block that
is walked through, none behind a message that loses its calls. -/
def marks : (valid : List String) → List Message → List Mark
  | _, [] => []
  | valid, m :: rest =>
    if m.callsTools then
      if allFound m rest then .keep :: marks (idsNeeded m) rest
      else .strip :: marks [] rest
    else if m.role = .tool then
      (if answersOne valid m then .keep else .drop) :: marks valid rest
    else .keep :: marks [] rest

def strippedCalls (m : Message) : Option Message :=
  if m.content.nonempty then some { m with toolCalls := [] } else none

def rebuilt (entry : Message × Mark) : Option Message :=
  match entry.2 with
  | .keep => some entry.1
  | .drop => none
  | .strip => strippedCalls entry.1

def strictFrom (valid : List String) (messages : List Message) : List Message :=
  (messages.zip (marks valid messages)).filterMap rebuilt

def sanitizeToolPairsStrict (messages : List Message) : List Message := strictFrom [] messages

/-! ## Blocks -/

/-- A call and the tool messages that follow it: each id has a result, and
each result an id. -/
structure Answers (calls : List ToolCall) (run : List Message) : Prop where
  answered : ∀ tc ∈ calls, ∃ r ∈ run, r.toolCallId = tc.id
  called : ∀ r ∈ run, ∃ tc ∈ calls, tc.id = r.toolCallId

/-- No two results have one id. -/
structure AnswersOnce (calls : List ToolCall) (run : List Message) : Prop where
  answers : Answers calls run
  once : (run.map (·.toolCallId)).Nodup

/-- **Tool messages stand in blocks only**, and every block is as `P` says. -/
inductive Blocks (P : List ToolCall → List Message → Prop) : List Message → Prop where
  | nil : Blocks P []
  | plain {m : Message} {rest : List Message} : m.role ≠ .tool → m.callsTools = false →
      Blocks P rest → Blocks P (m :: rest)
  | block {m : Message} {run rest : List Message} : m.callsTools = true →
      (∀ r ∈ run, r.role = .tool) → P m.toolCalls run → Blocks P rest →
      Blocks P (m :: (run ++ rest))

variable {P : List ToolCall → List Message → Prop} {valid : List String} {m : Message}
  {run rest messages : List Message}

def BeginsPlain (messages : List Message) : Prop := ∀ m ∈ messages.head?, m.role ≠ .tool

lemma Blocks.beginsPlain (h : Blocks P messages) : BeginsPlain messages := by
  intro _ hm
  cases h with
  | nil => cases hm
  | plain hrole =>
    rw [← Option.some.inj hm]
    exact hrole
  | block hcalls =>
    rw [← Option.some.inj hm, role_of_callsTools hcalls]
    decide

lemma toolRun_append (hrun : ∀ r ∈ run, r.role = .tool) (hrest : BeginsPlain rest) :
    toolRun (run ++ rest) = run := by
  unfold toolRun
  rw [takeWhile_append_of_pos (fun r hr => decide_eq_true (hrun r hr))]
  cases rest with
  | nil => exact append_nil run
  | cons m =>
    have hm : ¬ m.role = .tool := hrest m rfl
    rw [takeWhile_cons_of_neg (by simpa using hm), append_nil]

/-! ## One message at a time -/

theorem strictFrom_found (hcalls : m.callsTools = true) (hfound : allFound m rest = true) :
    strictFrom valid (m :: rest) = m :: strictFrom (idsNeeded m) rest := by
  unfold strictFrom
  rw [marks, if_pos hcalls, if_pos hfound]
  rfl

lemma strictFrom_missing (hcalls : m.callsTools = true) (hmissing : allFound m rest = false) :
    strictFrom valid (m :: rest) = (strippedCalls m).toList ++ strictFrom [] rest := by
  unfold strictFrom
  rw [marks, if_pos hcalls, if_neg (by rw [hmissing]; decide), zip_cons_cons]
  cases hm : strippedCalls m with
  | none => exact filterMap_cons_none hm
  | some => exact filterMap_cons_some hm

lemma strictFrom_tool (hrole : m.role = .tool) : strictFrom valid (m :: rest) =
      (if answersOne valid m then [m] else []) ++ strictFrom valid rest := by
  have hcalls : ¬ m.callsTools = true := fun h => by
    rw [role_of_callsTools h] at hrole
    cases hrole
  unfold strictFrom
  rw [marks, if_neg hcalls, if_pos hrole]
  split <;> rfl

lemma strictFrom_plain (hrole : m.role ≠ .tool) (hcalls : m.callsTools = false) :
    strictFrom valid (m :: rest) = m :: strictFrom [] rest := by
  unfold strictFrom
  rw [marks, if_neg (by rw [hcalls]; decide), if_neg hrole]
  rfl

lemma strictFrom_run (hrun : ∀ r ∈ run, r.role = .tool) :
    strictFrom valid (run ++ rest) = run.filter (answersOne valid) ++ strictFrom valid rest := by
  induction run with
  | nil => rfl
  | cons r run ih =>
    rw [cons_append, strictFrom_tool (hrun r mem_cons_self),
      ih (fun r' hr' => hrun r' (mem_cons_of_mem r hr')), filter_cons]
    split <;> rfl

lemma strictFrom_beginsPlain (h : BeginsPlain rest) :
    strictFrom valid rest = strictFrom [] rest := by
  cases rest with
  | nil => rfl
  | cons m rest =>
    have hrole : m.role ≠ .tool := h m rfl
    cases hcalls : m.callsTools with
    | false => rw [strictFrom_plain hrole hcalls, strictFrom_plain hrole hcalls]
    | true =>
      cases hfound : allFound m rest with
      | false => rw [strictFrom_missing hcalls hfound, strictFrom_missing hcalls hfound]
      | true => rw [strictFrom_found hcalls hfound, strictFrom_found hcalls hfound]

lemma exists_run (messages : List Message) :
    ∃ run rest, messages = run ++ rest ∧ (∀ r ∈ run, r.role = .tool) ∧ BeginsPlain rest := by
  refine ⟨toolRun messages, messages.dropWhile (·.role = .tool),
    takeWhile_append_dropWhile.symm, fun r hr => ?_, fun m hm => ?_⟩
  · have hrole := mem_takeWhile_imp (p := fun m : Message => decide (m.role = .tool)) hr
    exact of_decide_eq_true hrole
  have hhead := head?_dropWhile_not (fun m : Message => decide (m.role = .tool)) messages
  rw [Option.mem_def.1 hm] at hhead
  simpa using hhead

lemma mem_idsNeeded {id : String} : id ∈ idsNeeded m ↔ ∃ tc ∈ m.toolCalls, tc.id = id := by
  unfold idsNeeded
  rw [mem_map]

lemma answersOne_iff {needed : List String} {r : Message} :
    answersOne needed r = true ↔ r.toolCallId ≠ "" ∧ r.toolCallId ∈ needed := by
  unfold answersOne
  rw [Bool.and_eq_true, bne_iff_ne, contains_iff_mem]

lemma allFound_iff (hrun : ∀ r ∈ run, r.role = .tool) (hrest : BeginsPlain rest) :
    allFound m (run ++ rest) = true ↔
      ∀ tc ∈ m.toolCalls, tc.id ≠ "" ∧ ∃ r ∈ run, r.toolCallId = tc.id := by
  unfold allFound
  simp only [toolRun_append hrun hrest, all_eq_true, contains_iff_mem, mem_map,
    mem_filter, answersOne_iff]
  constructor
  · intro h tc htc
    obtain ⟨r, ⟨hr, hne, -⟩, hid⟩ := h tc.id (mem_idsNeeded.2 ⟨tc, htc, rfl⟩)
    exact ⟨hid ▸ hne, r, hr, hid⟩
  intro h id hid
  obtain ⟨tc, htc, rfl⟩ := mem_idsNeeded.1 hid
  obtain ⟨hne, r, hr, hrid⟩ := h tc htc
  exact ⟨r, ⟨hr, by rwa [hrid], by rwa [hrid]⟩, hrid⟩

/-! ## What is cleaned -/

theorem strippedCalls_cases (h : m.callsTools = true) {m' : Message} (hm : strippedCalls m = some m') :
    m'.role ≠ .tool ∧ m'.callsTools = false := by
  unfold strippedCalls at hm
  split at hm
  · rw [← Option.some.inj hm]
    refine ⟨?_, ?_⟩
    · show m.role ≠ .tool
      rw [role_of_callsTools h]
      decide
    unfold Message.callsTools
    simp
  cases hm

def IdsNonempty (messages : List Message) : Prop :=
  ∀ m ∈ messages, m.callsTools = true → ∀ tc ∈ m.toolCalls, tc.id ≠ ""

lemma blocks_strictFrom (n : Nat) : ∀ messages : List Message, messages.length ≤ n →
    Blocks Answers (strictFrom [] messages) ∧ IdsNonempty (strictFrom [] messages) := by
  induction n with
  | zero =>
    intro messages hlength
    rw [eq_nil_of_length_eq_zero (Nat.le_zero.1 hlength)]
    exact ⟨.nil, nofun⟩
  | succ n ih =>
    intro messages hlength
    cases messages with
    | nil => exact ⟨.nil, nofun⟩
    | cons m rest =>
      rw [length_cons] at hlength
      have hrest := ih rest (by omega)
      by_cases hrole : m.role = .tool
      · -- a tool message that is in no block
        rw [strictFrom_tool hrole, if_neg (by simp [answersOne])]
        exact hrest
      cases hcalls : m.callsTools with
      | false =>
        rw [strictFrom_plain hrole hcalls]
        refine ⟨.plain hrole hcalls hrest.1, fun m' hm' hcalls' => ?_⟩
        rcases mem_cons.1 hm' with rfl | hm'
        · rw [hcalls] at hcalls'
          cases hcalls'
        exact hrest.2 m' hm' hcalls'
      | true =>
        cases hfound : allFound m rest with
        | false =>
          rw [strictFrom_missing hcalls hfound]
          cases hm : strippedCalls m with
          | none => exact hrest
          | some =>
            have hplain := strippedCalls_cases hcalls hm
            refine ⟨.plain hplain.1 hplain.2 hrest.1, fun m'' hm'' hcalls' => ?_⟩
            rcases mem_cons.1 hm'' with rfl | hm''
            · rw [hplain.2] at hcalls'
              cases hcalls'
            exact hrest.2 m'' hm'' hcalls'
        | true =>
          obtain ⟨_, after, rfl, hrun, hafter⟩ := exists_run rest
          have hall := (allFound_iff hrun hafter).1 hfound
          rw [length_append] at hlength
          have hrest := ih after (by omega)
          rw [strictFrom_found hcalls hfound, strictFrom_run hrun, strictFrom_beginsPlain hafter]
          constructor
          · refine .block hcalls (fun r hr => hrun r (mem_of_mem_filter hr)) ⟨?_, ?_⟩ hrest.1
            · intro tc htc
              obtain ⟨_, r, hr, hid⟩ := hall tc htc
              refine ⟨r, mem_filter.2 ⟨hr, answersOne_iff.2 ⟨by rwa [hid], ?_⟩⟩, hid⟩
              rw [hid]
              exact mem_idsNeeded.2 ⟨tc, htc, rfl⟩
            exact fun r hr => mem_idsNeeded.1 (answersOne_iff.1 (mem_filter.1 hr).2).2
          intro m' hm' hcalls' tc htc
          rcases mem_cons.1 hm' with rfl | hm'
          · exact (hall tc htc).1
          rcases mem_append.1 hm' with hm' | hm'
          · have htool := hrun m' (mem_of_mem_filter hm')
            rw [role_of_callsTools hcalls'] at htool
            cases htool
          exact hrest.2 m' hm' hcalls' tc htc

lemma strictFrom_blocks (h : Blocks Answers messages) (hids : IdsNonempty messages) :
    strictFrom [] messages = messages := by
  induction h with
  | nil => rfl
  | @plain m rest hrole hcalls hrest ih =>
    rw [strictFrom_plain hrole hcalls, ih (fun m' hm' => hids m' (mem_cons_of_mem m hm'))]
  | @block m run rest hcalls hrun hanswers hrest ih =>
    have hne := hids m mem_cons_self hcalls
    have hfound : allFound m (run ++ rest) = true :=
      (allFound_iff hrun hrest.beginsPlain).2 (fun tc htc => ⟨hne tc htc, hanswers.answered tc htc⟩)
    have hstay : run.filter (answersOne (idsNeeded m)) = run := by
      refine filter_eq_self.2 (fun r hr => answersOne_iff.2 ?_)
      obtain ⟨tc, htc, hid⟩ := hanswers.called r hr
      rw [← hid]
      exact ⟨hne tc htc, mem_idsNeeded.2 ⟨tc, htc, rfl⟩⟩
    rw [strictFrom_found hcalls hfound, strictFrom_run hrun, hstay,
      strictFrom_beginsPlain hrest.beginsPlain,
      ih (fun m' hm' => hids m' (mem_cons_of_mem m (mem_append_right run hm')))]

def Lessened (m' m : Message) : Prop :=
  m' = m ∨ m.callsTools = true ∧ m' = { m with toolCalls := [] }

lemma strictFrom_lessened (valid : List String) (messages : List Message) :
    List.SublistForall₂ Lessened (strictFrom valid messages) messages := by
  induction messages generalizing valid with
  | nil => exact .nil
  | cons m rest ih =>
    cases hcalls : m.callsTools with
    | true =>
      cases hfound : allFound m rest with
      | true =>
        rw [strictFrom_found hcalls hfound]
        exact .cons (.inl rfl) (ih _)
      | false =>
        rw [strictFrom_missing hcalls hfound]
        unfold strippedCalls
        split
        · exact .cons (.inr ⟨hcalls, rfl⟩) (ih [])
        exact .cons_right (ih [])
    | false =>
      by_cases hrole : m.role = .tool
      · rw [strictFrom_tool hrole]
        split
        · exact .cons (.inl rfl) (ih valid)
        exact .cons_right (ih valid)
      rw [strictFrom_plain hrole hcalls]
      exact .cons (.inl rfl) (ih [])

def oneCall (id : String) : Message where
  role := .ai
  content := .text ""
  toolCalls := [{ id := id, name := "read", args := "" }]

def result (id : String) : Message where
  role := .tool
  content := .text "ok"
  toolCallId := id

lemma blocks_oneCall (id : String) : Blocks AnswersOnce [oneCall id, result id] := by
  apply @Blocks.block AnswersOnce (oneCall id) [result id] [] rfl
  · exact fun r hr => by rw [mem_singleton.1 hr]; rfl
  · refine ⟨⟨fun _ htc => ?_, fun r hr => ?_⟩, pairwise_singleton _ _⟩
    · rw [mem_singleton.1 htc]
      exact ⟨result id, mem_singleton_self _, rfl⟩
    rw [mem_singleton.1 hr]
    exact ⟨_, mem_singleton_self _, rfl⟩
  exact .nil

lemma Blocks.mono {Q : List ToolCall → List Message → Prop} (h : Blocks P messages)
    (hPQ : ∀ {calls run}, P calls run → Q calls run) : Blocks Q messages := by
  induction h with
  | nil => exact .nil
  | plain hrole hcalls _ ih => exact .plain hrole hcalls ih
  | block hcalls hrun hP _ ih => exact .block hcalls hrun (hPQ hP) ih

lemma blocks_once_head {m : Message} {rest : List Message} (hcalls : m.callsTools = true)
    (h : Blocks P (m :: rest)) : P m.toolCalls (toolRun rest) := by
  generalize hlist : m :: rest = messages at h
  cases h with
  | nil => cases hlist
  | plain _ hplain =>
    rw [← (cons.inj hlist).1, hcalls] at hplain
    cases hplain
  | block _ hrun hP hrest =>
    rw [(cons.inj hlist).1, (cons.inj hlist).2, toolRun_append hrun hrest.beginsPlain]
    exact hP

end DeterminFlow.Context
