/-
  Persistence.LegacyMessages
  **THE RECORD OF AN OLD SESSION FILE.**

  An old session file has no record but a list of messages, and `from_dict`
  makes the record of it.  A message with `display` becomes an entry that only
  the user sees, every other one an entry of its role.  The system prompt at
  the beginning is not recorded.
-/
import DeterminFlow.Library.PyJson
import Mathlib.Data.List.Nodup

namespace DeterminFlow.Persistence.Legacy

open Library List Option
open PyJson (getD optField)

variable {F : Type}

/-! ## Entries -/

abbrev Fields (F : Type) : Type := Dict String (PyJson F)

/-- `f"{n:05d}"`. -/
def paddedDigits (n : Nat) : List Char :=
  List.replicate (5 - (Nat.toDigits 10 n).length) '0' ++ Nat.toDigits 10 n

/-- `f"msg_{n:05d}"`. -/
def msgId (n : Nat) : String := "msg_" ++ String.ofList (paddedDigits n)

section
variable (fmt : PyFormat F)

/-- `if msg.get(key): entry[field] = msg[key]`. -/
def copied (msg : Fields F) (key field : String) : Fields F :=
  let value := getD msg key .null
  optField (value.truthy fmt) field value

/-- `msg.get("role", "")`. -/
def role (msg : Fields F) : PyJson F := getD msg "role" (.str "")

/-- `role == "system"`. -/
def isSystem (msg : Fields F) : Bool :=
  match role msg with
  | .str text => text = "system"
  | _ => false

/-- `bool(msg.get("display"))`. -/
def isDisplay (msg : Fields F) : Bool := (getD msg "display" .null).truthy fmt

/-- The entry of a message with `display`. -/
def displayEntry (id : String) (msg : Fields F) : Fields F :=
  [("id", .str id), ("type", getD msg "display" .null)]
    ++ copied fmt msg "compression_event" "event" ++ copied fmt msg "strategy" "strategy"

def roleEntry (id : String) (msg : Fields F) : Fields F :=
  [("id", .str id), ("type", role msg)]
    ++ ["content", "name", "source", "reasoning_content", "tool_calls", "tool_call_id", "status",
        "tool_status"].flatMap (fun key => copied fmt msg key key)

def entryFor (id : String) (msg : Fields F) : Fields F :=
  if isDisplay fmt msg then displayEntry fmt id msg else roleEntry fmt id msg

def isUnrecorded (msg : Fields F) : Bool := !isDisplay fmt msg && isSystem msg

/-! ## The loop of `from_dict` -/

/-- The session in the course of the loop, and its variable `entry`. -/
structure Loading (F : Type) where
  msgCounter : Nat := 0
  record : List (Fields F) := []
  entry : Option (Fields F) := none

/-- One message; `none` stands for `UnboundLocalError`. -/
def loadMessage (s : Loading F) (msg : Fields F) : Option (Loading F) :=
  if isDisplay fmt msg then
    let entry := displayEntry fmt (msgId (s.msgCounter + 1)) msg
    some { msgCounter := s.msgCounter + 1, record := s.record ++ [entry], entry := some entry }
  else if isSystem msg then
    if s.msgCounter = 0 ∧ s.record = [] then some s
    -- the variable still holds the entry of an earlier message
    else s.entry.map (fun entry => { s with record := s.record ++ [entry] })
  else
    let entry := roleEntry fmt (msgId (s.msgCounter + 1)) msg
    some { msgCounter := s.msgCounter + 1, record := s.record ++ [entry], entry := some entry }

/-- The record that `from_dict` makes of the messages. -/
def loadLegacy (messages : List (Fields F)) : Option (List (Fields F)) :=
  (messages.foldlM (loadMessage fmt) {}).map (·.record)

/-- `entry["id"]`. -/
def entryId (entry : Fields F) : Option String :=
  match entry.get? "id" with
  | some (.str id) => some id
  | _ => none

/-- Every message has one entry, in the same order, and the ids are distinct. -/
structure OneEach (messages record : List (Fields F)) : Prop where
  entries : List.Forall₂ (fun msg entry => ∃ id, entry = entryFor fmt id msg) messages record
  ids : (record.map entryId).Nodup

end

/-! ## Ids -/

lemma ofDigitChars_zeros (k : Nat) (digits : List Char) :
    Nat.ofDigitChars 10 (List.replicate k '0' ++ digits) 0 = Nat.ofDigitChars 10 digits 0 := by
  induction k with
  | zero => rfl
  | succ k ih =>
    rw [replicate_succ, cons_append, Nat.ofDigitChars_cons]
    exact ih

lemma ofDigitChars_padded (n : Nat) : Nat.ofDigitChars 10 (paddedDigits n) 0 = n := by
  unfold paddedDigits
  rw [ofDigitChars_zeros, Nat.ofDigitChars_ten_toDigits]

lemma msgId_injective {m n : Nat} (h : msgId m = msgId n) : m = n := by
  have hlists : (msgId m).toList = (msgId n).toList := congrArg String.toList h
  unfold msgId at hlists
  simp only [String.toList_append, String.toList_ofList] at hlists
  rw [← ofDigitChars_padded m, ← ofDigitChars_padded n, append_cancel_left hlists]

variable {fmt : PyFormat F} {messages : List (Fields F)} {s s' : Loading F}

lemma entryId_entryFor (id : String) (msg : Fields F) : entryId (entryFor fmt id msg) = some id := by
  unfold entryFor
  split <;> rfl

/-! ## One message -/

def Loading.add (s : Loading F) (entry : Fields F) : Loading F where
  msgCounter := s.msgCounter + 1
  record := s.record ++ [entry]
  entry := some entry

lemma loadMessage_recorded {msg : Fields F} (h : isUnrecorded fmt msg = false) :
    loadMessage fmt s msg = some (s.add (entryFor fmt (msgId (s.msgCounter + 1)) msg)) := by
  unfold loadMessage entryFor
  cases hdisplay : isDisplay fmt msg with
  | true => rfl
  | false =>
    have hsystem : isSystem msg = false := by
      unfold isUnrecorded at h
      rw [hdisplay] at h
      exact h
    rw [hsystem]
    rfl

lemma loadMessage_unrecorded {msg : Fields F} (h : isUnrecorded fmt msg = true) :
    loadMessage fmt s msg = if s.msgCounter = 0 ∧ s.record = [] then some s
      else s.entry.map (fun entry => { s with record := s.record ++ [entry] }) := by
  unfold isUnrecorded at h
  rw [Bool.and_eq_true, Bool.not_eq_true'] at h
  unfold loadMessage
  rw [h.1, h.2]
  rfl

def Loading.Held (s : Loading F) : Prop := ∀ entry, s.entry = some entry → entry ∈ s.record

lemma Loading.held_add (s : Loading F) (entry : Fields F) : (s.add entry).Held := by
  intro _ he
  rw [← some.inj he]
  exact mem_append_right _ (mem_singleton.2 rfl)

lemma loadMessage_record {msg : Fields F} (h : loadMessage fmt s msg = some s') :
    s' = s ∨ ∃ entry, s'.record = s.record ++ [entry] := by
  cases hmsg : isUnrecorded fmt msg with
  | false =>
    rw [loadMessage_recorded hmsg] at h
    exact .inr ⟨_, by rw [← some.inj h]; rfl⟩
  | true =>
    rw [loadMessage_unrecorded hmsg] at h
    split at h
    · exact .inl (some.inj h).symm
    obtain ⟨entry, -, hs'⟩ := map_eq_some_iff.1 h
    exact .inr ⟨entry, by rw [← hs']⟩

/-! ## All messages -/

lemma loadMessages_record (h : messages.foldlM (loadMessage fmt) s = some s') :
    s.record <+: s'.record ∧ s'.record.length ≤ s.record.length + messages.length := by
  induction messages generalizing s with
  | nil =>
    rw [← some.inj h]
    exact ⟨prefix_rfl, Nat.le_refl _⟩
  | cons msg rest ih =>
    rw [foldlM_cons] at h
    obtain ⟨_, hstep, hrest⟩ := bind_eq_some_iff.1 h
    have htail := ih hrest
    rw [length_cons]
    rcases loadMessage_record hstep with rfl | ⟨entry, hentry⟩
    · exact ⟨htail.1, by omega⟩
    rw [hentry, length_append, length_singleton] at htail
    exact ⟨(prefix_append _ _).trans htail.1, by omega⟩

def numbered (fmt : PyFormat F) : Nat → List (Fields F) → List (Fields F)
  | _, [] => []
  | n, msg :: rest => entryFor fmt (msgId (n + 1)) msg :: numbered fmt (n + 1) rest

lemma loadMessages_recorded (h : ∀ msg ∈ messages, isUnrecorded fmt msg = false) :
    ∃ s', messages.foldlM (loadMessage fmt) s = some s'
      ∧ s'.record = s.record ++ numbered fmt s.msgCounter messages := by
  induction messages generalizing s with
  | nil => exact ⟨s, rfl, (append_nil _).symm⟩
  | cons msg rest ih =>
    obtain ⟨s', hrest, hrecord⟩ := @ih (s.add (entryFor fmt (msgId (s.msgCounter + 1)) msg))
      (fun m hm => h m (mem_cons_of_mem _ hm))
    refine ⟨s', ?_, ?_⟩
    · rw [foldlM_cons, loadMessage_recorded (h msg mem_cons_self)]
      exact hrest
    rw [hrecord, numbered]
    exact append_assoc s.record [_] _

lemma entries_numbered (n : Nat) : List.Forall₂ (fun msg entry => ∃ id, entry = entryFor fmt id msg)
    messages (numbered fmt n messages) := by
  induction messages generalizing n with
  | nil => exact .nil
  | cons msg rest ih => exact .cons ⟨_, rfl⟩ (ih (n + 1))

lemma entryId_numbered {n : Nat} {id : Option String}
    (h : id ∈ (numbered fmt n messages).map entryId) : ∃ k, n < k ∧ id = some (msgId k) := by
  induction messages generalizing n with
  | nil => cases h
  | cons msg rest ih =>
    rw [numbered, map_cons, entryId_entryFor] at h
    rcases mem_cons.1 h with rfl | hmem
    · exact ⟨n + 1, by omega, rfl⟩
    obtain ⟨k, _, hid⟩ := ih hmem
    exact ⟨k, by omega, hid⟩

lemma nodup_numbered (n : Nat) : ((numbered fmt n messages).map entryId).Nodup := by
  induction messages generalizing n with
  | nil => exact nodup_nil
  | cons msg rest ih =>
    rw [numbered, map_cons, entryId_entryFor]
    refine nodup_cons.2 ⟨fun hmem => ?_, ih (n + 1)⟩
    obtain ⟨_, _, hid⟩ := entryId_numbered hmem
    have := msgId_injective (some.inj hid)
    omega

lemma recorded_of_oneEach (hheld : s.Held) (h : messages.foldlM (loadMessage fmt) s = some s')
    (hlength : s'.record.length = s.record.length + messages.length)
    (hids : (s'.record.map entryId).Nodup) : ∀ msg ∈ messages, isUnrecorded fmt msg = false := by
  induction messages generalizing s with
  | nil => exact nofun
  | cons msg rest ih =>
    rw [foldlM_cons] at h
    obtain ⟨_, hstep, hrest⟩ := bind_eq_some_iff.1 h
    have hframe := loadMessages_record hrest
    rw [length_cons] at hlength
    cases hmsg : isUnrecorded fmt msg with
    | false =>
      rw [loadMessage_recorded hmsg] at hstep
      obtain rfl := some.inj hstep
      have hone : (s.add (entryFor fmt (msgId (s.msgCounter + 1)) msg)).record.length
          = s.record.length + 1 := by
        unfold Loading.add
        simp
      have htail := ih (s.held_add _) hrest (by omega)
      intro m hm
      rcases mem_cons.1 hm with rfl | hm
      · exact hmsg
      exact htail m hm
    | true =>
      rw [loadMessage_unrecorded hmsg] at hstep
      split at hstep
      · -- skipped: an entry is missing
        obtain rfl := some.inj hstep
        omega
      -- repeated: two entries with one id
      obtain ⟨entry, hentry, rfl⟩ := map_eq_some_iff.1 hstep
      have hnodup := (hframe.1.map entryId).sublist.nodup hids
      rw [map_append, map_singleton] at hnodup
      have hdisjoint := (nodup_append.1 hnodup).2.2
      exact absurd rfl (hdisjoint _ (mem_map_of_mem (hheld entry hentry)) _ (mem_singleton.2 rfl))

/-- **Every message has an entry of its own** exactly when none is a system
message without `display`. -/
theorem loadLegacy_iff (fmt : PyFormat F) (messages : List (Fields F)) :
    (∃ record, loadLegacy fmt messages = some record ∧ OneEach fmt messages record)
      ↔ ∀ msg ∈ messages, isUnrecorded fmt msg = false := by
  constructor
  · rintro ⟨record, hload, heach⟩
    obtain ⟨s', hrun, rfl⟩ := map_eq_some_iff.1 hload
    have hheld : Loading.Held ({} : Loading F) := by
      intro _ hentry
      cases hentry
    refine recorded_of_oneEach hheld hrun ?_ heach.ids
    rw [← heach.entries.length_eq]
    exact (Nat.zero_add _).symm
  intro h
  obtain ⟨s', hrun, hrecord⟩ := @loadMessages_recorded F fmt messages {} h
  refine ⟨s'.record, by rw [loadLegacy, hrun]; rfl, ?_⟩
  rw [hrecord]
  exact ⟨entries_numbered 0, nodup_numbered 0⟩

lemma loadLegacy_prompt (fmt : PyFormat F) (messages : List (Fields F)) :
    loadLegacy fmt messages = loadLegacy fmt (messages.dropWhile (isUnrecorded fmt)) := by
  induction messages with
  | nil => rfl
  | cons msg rest ih =>
    cases hmsg : isUnrecorded fmt msg with
    | false => rw [dropWhile_cons_of_neg (by rw [hmsg]; decide)]
    | true =>
      rw [dropWhile_cons_of_pos hmsg, ← ih]
      unfold loadLegacy
      rw [foldlM_cons, loadMessage_unrecorded hmsg, if_pos ⟨rfl, rfl⟩]
      rfl

/-- **The record of an old file**: its system prompt first, then messages that
all have an entry. -/
theorem loadLegacy_entries (fmt : PyFormat F) (messages : List (Fields F))
    (h : ∀ msg ∈ messages.dropWhile (isUnrecorded fmt), isUnrecorded fmt msg = false) :
    ∃ record, loadLegacy fmt messages = some record
      ∧ OneEach fmt (messages.dropWhile (isUnrecorded fmt)) record := by
  rw [loadLegacy_prompt]
  exact (loadLegacy_iff fmt _).2 h

/-! ## Two files -/

def plainFormat : PyFormat Empty where
  floatRepr f := nomatch f
  floatTruthy f := nomatch f
  containerStr _ := "[]"

def spoken (role text : String) : Fields Empty := [("role", .str role), ("content", .str text)]

def toolTalk : List (Fields Empty) :=
  [spoken "system" "You help.", spoken "user" "What is there?",
    [("role", .str "assistant"), ("content", .str ""),
      ("tool_calls", .list [.dict [("id", .str "a")]])],
    [("role", .str "tool"), ("content", .str "a file"), ("tool_call_id", .str "a")],
    [("role", .str "system"), ("display", .str "compression_divider")], spoken "assistant" "A file."]

theorem toolTalk_entries : ∃ record, loadLegacy plainFormat toolTalk = some record
    ∧ OneEach plainFormat (toolTalk.dropWhile (isUnrecorded plainFormat)) record :=
  loadLegacy_entries plainFormat toolTalk (by decide +kernel)

/-- The system prompt has no entry. -/
theorem prompt_has_no_entry : ¬ ∃ record,
    loadLegacy plainFormat [spoken "system" "You help.", spoken "user" "Hello"] = some record
      ∧ OneEach plainFormat [spoken "system" "You help.", spoken "user" "Hello"] record := by
  intro h
  have hnone := (loadLegacy_iff plainFormat _).1 h (spoken "system" "You help.") mem_cons_self
  exact absurd hnone (by decide +kernel)

end DeterminFlow.Persistence.Legacy
