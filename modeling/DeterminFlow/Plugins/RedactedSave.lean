/-
  Plugins.RedactedSave
  **SAVING BACK THE SETTINGS THAT WERE SHOWN.**

  The settings page saves what it was shown, with an empty text for every
  hidden value.  A save puts back the password fields of the schema.  What was
  a password once is hidden as well, and is not put back: it is saved as an
  empty text, or the save fails.
-/
import DeterminFlow.Plugins.Settings

namespace DeterminFlow.Plugins.Settings

open Library DeterminFlow.Runtime List Option

/-! ## One field -/

def Properties.get? : Properties → String → Option Schema
  | .nil, _ => none
  | .cons key child rest, name => if key = name then some child else rest.get? name

def shownAs (sensitive : List Path) (path : Path) (child : Schema) (value : Json) : Json :=
  if sensitive.contains path || child.isPassword then .str ""
  else if child.isObject then .dict (redact sensitive path child value)
  else value

/-- What a save makes of a field. -/
def keptAs (child : Schema) (saved : Option Json) (value : Json) : Json :=
  if child.isPassword && same value (.str "") && saved.isSome then saved.getD value
  else if child.isObject then preserve child value saved
  else value

/-! ## The condition -/

mutual

/-- A path that is hidden without being a password field holds an empty text. -/
def Restorable (sensitive : List Path) (path : Path) : Schema → Json → Prop
  | .mk keywords properties, value => keywords.kind = .object →
      ∀ fields, value = .dict fields → RestorableFields sensitive path properties fields

def RestorableFields (sensitive : List Path) (path : Path) :
    Properties → List (String × Json) → Prop
  | .nil, _ => True
  | .cons key child rest, fields =>
    (∀ value, Dict.get? fields key = some value → child.isPassword = true ∨
      (path ++ [key] ∈ sensitive ∧ value = .str "") ∨
      (path ++ [key] ∉ sensitive ∧ Restorable sensitive (path ++ [key]) child value))
    ∧ RestorableFields sensitive path rest fields

end

/-! ## The fields one by one -/

variable {sensitive : List Path} {path : Path} {key text : String} {child : Schema}
  {properties rest : Properties} {v n w : Json} {fields kept others : List (String × Json)}

lemma mem_keys_of_get? (h : properties.get? key = some child) : key ∈ properties.keys := by
  induction properties using Properties.rec (motive_1 := fun _ => True) with
  | mk => trivial
  | nil => cases h
  | cons other first rest _ ih =>
    rw [Properties.get?] at h
    split at h
    · next heq => exact heq ▸ mem_cons_self
    exact mem_cons_of_mem _ (ih h)

lemma get?_redactFields (properties : Properties) :
    Dict.get? (redactFields sensitive path properties fields) key =
      (properties.get? key).bind fun child =>
        (Dict.get? fields key).map (shownAs sensitive (path ++ [key]) child) := by
  induction properties using Properties.rec (motive_1 := fun _ => True) with
  | mk => trivial
  | nil => rfl
  | cons other first rest _ ih =>
    rw [redactFields, Properties.get?]
    by_cases heq : other = key
    · subst heq
      rcases hget : Dict.get? fields other with _ | value
      · simp [ih, hget]
      simp [Dict.get?_cons, shownAs]
    rw [if_neg heq, ← ih]
    split
    · rfl
    rw [Dict.get?_cons, if_neg heq]

lemma get?_preserveFields (saved : List (String × Json)) (properties : Properties) :
    ∀ fields, properties.Distinct →
      Dict.get? (preserveFields properties fields saved) key =
        (Dict.get? fields key).map fun value =>
          ((properties.get? key).map fun child => keptAs child (Dict.get? saved key) value).getD
            value := by
  induction properties using Properties.rec (motive_1 := fun _ => True) with
  | mk => trivial
  | nil => simp [preserveFields, Properties.get?]
  | cons other first rest _ ih =>
    rintro fields ⟨hother, -, hrest⟩
    have hlast : rest.get? other = none := by
      by_contra hsome
      obtain ⟨child, hchild⟩ := ne_none_iff_exists'.1 hsome
      exact hother (mem_keys_of_get? hchild)
    rw [preserveFields, Properties.get?]
    rcases hget : Dict.get? fields other with _ | value
    · rw [ih fields hrest]
      by_cases heq : other = key
      · subst heq
        simp [hget]
      simp [heq]
    rw [ih _ hrest, Dict.get?_set]
    by_cases heq : other = key
    · subst heq
      simp [hget, hlast, keptAs]
    simp [heq]

lemma normalizeFields_cons_some {F : List (String × Json)} (hget : Dict.get? F key = some w) :
    normalizeFields [] (.cons key (sparse child) rest) F text = .ok ((key, n) :: others) ↔
      normalize (sparse child) w (text ++ "." ++ key) = .ok n ∧
        normalizeFields [] rest F text = .ok others := by
  have hor : (some w <|> (sparse child).keywords.default) = some w := rfl
  simp only [normalizeFields, hget, hor]
  rcases hnormal : normalize (sparse child) w (text ++ "." ++ key) with e | m
  · simp
  rcases normalizeFields [] rest F text with e | more <;> simp

lemma unknownKeys_eq_nil {F : List (String × Json)}
    (h : ∀ key, properties.get? key = none → Dict.get? F key = none) :
    unknownKeys properties F = [] := by
  refine filter_eq_nil_iff.2 fun key hkey => ?_
  obtain ⟨entry, hentry, rfl⟩ := mem_map.1 hkey
  have hsome : (Dict.get? F entry.1).isSome := by
    simp only [Dict.get?, isSome_map, find?_isSome]
    exact ⟨entry, hentry, by simp⟩
  have hchild : properties.get? entry.1 ≠ none := fun hnone => by
    rw [h _ hnone] at hsome
    cases hsome
  obtain ⟨_, hchild⟩ := ne_none_iff_exists'.1 hchild
  simpa using mem_keys_of_get? hchild

lemma keys_sparseAll (properties : Properties) :
    (sparseAll properties).keys = properties.keys := by
  induction properties using Properties.rec (motive_1 := fun _ => True) with
  | mk => trivial
  | nil => rfl
  | cons key child rest _ ih => simp [sparseAll, Properties.keys, ih]

lemma sparse_leaf {keywords : Keywords} (hkind : keywords.kind ≠ .object)
    (properties : Properties) : ∃ stripped : Keywords, stripped.kind ≠ .object ∧
      sparse (.mk keywords properties) = .mk stripped properties := by
  refine ⟨{ keywords with default := none }, hkind, ?_⟩
  rw [sparse, if_neg hkind]

/-- A hidden leaf, or a hidden object, comes back as an empty text. -/
lemma normalize_blank (h : normalize (sparse child) v text = .ok n) :
    normalize (sparse child) (.str "") text = .ok n ↔ v = .str "" := by
  obtain ⟨keywords, properties⟩ := child
  by_cases hkind : keywords.kind = .object
  · simp only [sparse, hkind, if_true] at h ⊢
    obtain ⟨_, _, rfl, -⟩ := normalize_object rfl h
    simp [normalize]
  obtain ⟨_, hstripped, hsparse⟩ := sparse_leaf hkind properties
  rw [hsparse] at h ⊢
  obtain ⟨rfl, -⟩ := normalize_leaf hstripped h
  constructor
  · intro hblank
    exact (normalize_leaf hstripped hblank).1
  rintro rfl
  exact h

/-! ## The whole document -/

mutual

/-- **An object**: it comes back exactly when it is restorable. -/
theorem normalize_shown : ∀ (child : Schema) {path : Path} {text : String}
    {fields kept : List (String × Json)}, child.Distinct → child.isObject = true →
    normalize (sparse child) (.dict fields) text = .ok (.dict kept) →
    (normalize (sparse child) (preserve child (.dict (redact sensitive path child (.dict kept)))
        (some (.dict fields))) text = .ok (.dict kept) ↔
      Restorable sensitive path child (.dict fields))
  | .mk keywords properties, path, text, fields, kept, hdistinct, hobject, h => by
    have hkind : keywords.kind = .object := of_decide_eq_true hobject
    simp only [sparse, hkind, if_true] at h ⊢
    obtain ⟨_, _, hfields, hkept, h⟩ := normalize_object rfl h
    obtain rfl := Json.dict.inj hfields
    obtain rfl := Json.dict.inj hkept
    simp only [preserve, redact, hkind, if_true, Restorable, Json.dict.injEq, forall_eq',
      forall_const]
    have hF : ∀ key, Dict.get? (preserveFields properties
        (redactFields sensitive path properties kept) fields) key =
        (properties.get? key).bind fun child => (Dict.get? kept key).map fun n =>
          keptAs child (Dict.get? fields key) (shownAs sensitive (path ++ [key]) child n) := by
      intro key
      rw [get?_preserveFields fields properties _ hdistinct, get?_redactFields]
      cases properties.get? key <;> simp [Function.comp_def]
    have hunknown : unknownKeys (sparseAll properties) (preserveFields properties
        (redactFields sensitive path properties kept) fields) = [] := by
      rw [unknownKeys, keys_sparseAll]
      exact unknownKeys_eq_nil fun key hnone => by rw [hF, hnone]; rfl
    rw [← normalizeFields_shown properties hdistinct h fun key child hchild => by
      rw [hF, hchild, bind_some]]
    rw [normalize, if_pos rfl, hunknown]
    cases normalizeFields [] (sparseAll properties) (preserveFields properties
      (redactFields sensitive path properties kept) fields) text <;> simp [Except.map]

/-- The fields of an object, for any document `F` that has what the save makes
of them. -/
lemma normalizeFields_shown : ∀ (properties : Properties) {path : Path} {text : String}
    {fields kept F : List (String × Json)}, properties.Distinct →
    normalizeFields [] (sparseAll properties) fields text = .ok kept →
    (∀ key child, properties.get? key = some child → Dict.get? F key =
      (Dict.get? kept key).map fun n =>
        keptAs child (Dict.get? fields key) (shownAs sensitive (path ++ [key]) child n)) →
    (normalizeFields [] (sparseAll properties) F text = .ok kept ↔
      RestorableFields sensitive path properties fields)
  | .nil, _, _, _, _, _, _, h, _ => by
    obtain rfl := Except.ok.inj h
    simp [sparseAll, normalizeFields, RestorableFields]
  | .cons key child rest, path, text, fields, kept, F, ⟨hkey, hchild, hrest⟩, h, hF => by
    have hat := hF key child (by simp [Properties.get?])
    have hlater : ∀ name first, rest.get? name = some first → key ≠ name := by
      rintro name first hfirst rfl
      exact hkey (mem_keys_of_get? hfirst)
    simp only [sparseAll] at h ⊢
    rcases normalizeFields_cons h with ⟨hnone, hothers⟩ | ⟨v, n, _, hv, hn, hothers, rfl⟩
    · -- a field that is not set is neither shown nor kept
      rw [normalizeFields_keys rest hothers key hkey] at hat
      have hskip : normalizeFields [] (.cons key (sparse child) (sparseAll rest)) F text =
          normalizeFields [] (sparseAll rest) F text := by
        simp only [normalizeFields, hat, (keywords_sparse child).2]
        rfl
      rw [hskip, RestorableFields, normalizeFields_shown rest hrest hothers
        fun name first hfirst => hF name first (by
          rw [Properties.get?, if_neg (hlater name first hfirst), hfirst])]
      simp [hnone]
    rw [Dict.get?_cons, if_pos rfl, map_some, hv] at hat
    rw [normalizeFields_cons_some hat, RestorableFields, normalizeFields_shown rest hrest hothers
      fun name first hfirst => by
        rw [hF name first (by rw [Properties.get?, if_neg (hlater name first hfirst), hfirst]),
          Dict.get?_cons, if_neg (hlater name first hfirst)]]
    refine and_congr_left fun _ => ?_
    simp only [hv, some.injEq, forall_eq']
    by_cases hpassword : child.isPassword = true
    · -- the password in force is put back
      have hsame : same (.str "") (.str "") = true := rfl
      simp [hpassword, shownAs, keptAs, hsame, hn]
    by_cases hhidden : path ++ [key] ∈ sensitive
    · have hblank : keptAs child (some v) (shownAs sensitive (path ++ [key]) child n) = .str "" := by
        obtain ⟨keywords, properties⟩ := child
        simp [shownAs, hhidden, keptAs, hpassword, preserve]
      rw [hblank, normalize_blank hn]
      simp [hpassword, hhidden]
    simp only [shownAs, keptAs, hhidden, hpassword, false_or, or_false, Bool.or_eq_true,
      contains_iff_mem, Bool.false_eq_true, if_false, Bool.false_and, false_and,
      not_false_eq_true, true_and]
    by_cases hobject : child.isObject = true
    · have hdict : ∃ fs ks, v = .dict fs ∧ n = .dict ks := by
        obtain ⟨keywords, properties⟩ := child
        have hkind : keywords.kind = .object := of_decide_eq_true hobject
        simp only [sparse, hkind, if_true] at hn
        obtain ⟨fs, ks, hfs, hks, -⟩ := normalize_object rfl hn
        exact ⟨fs, ks, hfs, hks⟩
      obtain ⟨fs, ks, rfl, rfl⟩ := hdict
      simp only [hobject, if_true]
      exact normalize_shown child hchild hobject hn
    obtain ⟨keywords, properties⟩ := child
    have hkind : keywords.kind ≠ .object := fun heq => hobject (decide_eq_true heq)
    obtain ⟨_, hstripped, hsparse⟩ := sparse_leaf hkind properties
    rw [hsparse] at hn ⊢
    obtain ⟨rfl, -⟩ := normalize_leaf hstripped hn
    simp [hobject, hn, Restorable, hkind]

end

/-- A stored document that a save accepts; `n` is the document as the
validation returns it, in the order of the schema. -/
structure Accepted (stored : Stored) (schema : SettingsSchema) (w : Surroundings)
    (doc n : List (String × Json)) : Prop where
  values : stored.values = some doc
  valid : validateSparse schema.schema doc = .ok (.dict n)
  applied : ∃ m, resolveApplied w.environment schema.schema n = .ok m
  written : w.paths = true ∧ w.values = true

def SavesBack (stored : Stored) (schema : SettingsSchema) (w : Surroundings)
    (n : List (String × Json)) : Prop :=
  ∃ shown, stored.projected schema.schema = .ok shown ∧
    (stored.save schema.schema shown w).2 = true ∧
    (stored.save schema.schema shown w).1.values = some n

/-- It succeeds and changes nothing exactly when every hidden path that is no
password field holds an empty text. -/
theorem save_shown_iff (stored : Stored) (schema : SettingsSchema) (w : Surroundings)
    (doc n : List (String × Json)) (h : Accepted stored schema w doc n) :
    SavesBack stored schema w n ↔
      Restorable (stored.sensitivePaths schema.schema doc) [] schema.schema (.dict doc) := by
  obtain ⟨hvalues, hvalid, ⟨_, happlied⟩, hpaths, hwritten⟩ := h
  have hobject : schema.schema.isObject = true := by
    rcases hschema : schema.schema with ⟨keywords, properties⟩
    by_contra hleaf
    have hkind : keywords.kind ≠ .object := fun heq => hleaf (decide_eq_true heq)
    obtain ⟨_, hstripped, hsparse⟩ := sparse_leaf hkind properties
    rw [hschema, validateSparse, hsparse] at hvalid
    exact (normalize_leaf hstripped hvalid).2 doc rfl
  rw [← normalize_shown schema.schema schema.distinct hobject hvalid]
  simp only [SavesBack, Stored.projected, hvalues, getD_some, hvalid, Except.map,
    Except.ok.injEq, exists_eq_left', Stored.save]
  have hdict : ∃ F, preserve schema.schema (.dict (redact (stored.sensitivePaths schema.schema doc)
      [] schema.schema (.dict n))) (some (.dict doc)) = .dict F := by
    rcases hschema : schema.schema with ⟨keywords, properties⟩
    rw [hschema] at hobject
    have hkind : keywords.kind = .object := of_decide_eq_true hobject
    exact ⟨_, by rw [preserve, if_pos hkind]⟩
  obtain ⟨F, hF⟩ := hdict
  simp only [hF]
  show _ ↔ validateSparse schema.schema F = _
  constructor
  · rintro ⟨hsucceeds, hsaved⟩
    split at hsucceeds
    · next normalized hnormal =>
        rw [hnormal] at hsaved ⊢
        split at hsucceeds
        · cases hsucceeds
        next happly =>
          simp only [happly, hpaths, hwritten, if_true, some.injEq] at hsaved
          rw [hsaved]
    cases hsucceeds
  intro hnormal
  simp only [hnormal, happlied, hpaths, hwritten, if_true, and_self]

/-- A password that stays one: the settings shown can be saved back. -/
theorem save_shown_password : SavesBack { afterSecret.stored with values :=some (withSecret "alpha") }
        (secretAs (some .password)) savedSecret.surroundings (withSecret "alpha") ↔
      Restorable (afterSecret.stored.sensitivePaths (secretAs (some .password)).schema
        (withSecret "alpha")) [] (secretAs (some .password)).schema (.dict (withSecret "alpha")) :=
  save_shown_iff _ (secretAs (some .password)) savedSecret.surroundings (withSecret "alpha") _
    ⟨rfl, rfl, ⟨_, rfl⟩, rfl, rfl⟩

/-- A password that became a plain text: the save succeeds, and empties it. -/
theorem save_shown_downgraded : ¬ ∀ (stored : Stored) (schema : SettingsSchema) (w : Surroundings)
        (doc n : List (String × Json)), Accepted stored schema w doc n →
      SavesBack stored schema w n := by
  intro hall
  obtain ⟨shown, hshown, -, hsaved⟩ :=
    hall { afterSecret.stored with values := some (withSecret "alpha") } (secretAs none)
      savedSecret.surroundings (withSecret "alpha") (withSecret "alpha")
      ⟨rfl, rfl, ⟨_, rfl⟩, rfl, rfl⟩
  obtain rfl : withSecret "" = shown := Except.ok.inj hshown
  have hempty : withSecret "" = withSecret "alpha" := some.inj hsaved
  simp [withSecret] at hempty

end DeterminFlow.Plugins.Settings
