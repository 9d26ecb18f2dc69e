/-
  Plugins.Settings
  **THE SETTINGS OF A PLUGIN AND WHAT IS SHOWN OF THEM.**

  A settings schema is modelled as the validation of `load_settings_schema`
  leaves it: an object with properties, or a leaf.  `normalize` checks a value
  against it, `redact` blanks the passwords in a value.  The store keeps, beside
  the settings, the paths that were password fields in a schema under which it
  saved.
-/
import DeterminFlow.Runtime.NodeState

namespace DeterminFlow.Plugins.Settings

open Library DeterminFlow.Runtime List Option Except

/-! ## Schemas -/

inductive Kind where
  | object
  | string
  | number
  | integer
  | boolean
  | array
  deriving DecidableEq

inductive Format where
  | password
  | uri
  | multiline
  deriving DecidableEq

/-- The keywords of a schema besides `properties`. -/
structure Keywords where
  kind : Kind
  format : Option Format := none
  required : List String := []
  default : Option Json := none
  enum : Option (List Json) := none
  minimum : Option Rat := none
  maximum : Option Rat := none

mutual

inductive Schema where
  | mk (keywords : Keywords) (properties : Properties)

/-- `properties`, in their order; only an object has some. -/
inductive Properties where
  | nil
  | cons (key : String) (child : Schema) (rest : Properties)

end

def Schema.keywords : Schema → Keywords
  | .mk keywords _ => keywords

def Properties.keys : Properties → List String
  | .nil => []
  | .cons key _ rest => key :: rest.keys

mutual

def Schema.Distinct : Schema → Prop
  | .mk _ properties => properties.Distinct

def Properties.Distinct : Properties → Prop
  | .nil => True
  | .cons key child rest => key ∉ rest.keys ∧ child.Distinct ∧ rest.Distinct

end

/-- A schema as JSON has it: with distinct keys. -/
structure SettingsSchema where
  schema : Schema
  distinct : schema.Distinct

/-- `type == "string" and format == "password"`. -/
def Schema.isPassword (schema : Schema) : Bool :=
  decide (schema.keywords.kind = .string) && decide (schema.keywords.format = some .password)

def Schema.isObject (schema : Schema) : Bool := decide (schema.keywords.kind = .object)

abbrev Path : Type := List String

mutual

/-- `_schema_password_paths`. -/
def passwordPaths (path : Path) : Schema → List Path
  | .mk keywords properties =>
    if keywords.kind = .object then passwordPathsOf path properties else []

def passwordPathsOf (path : Path) : Properties → List Path
  | .nil => []
  | .cons key child rest =>
    (if child.isPassword then [path ++ [key]]
      else if child.isObject then passwordPaths (path ++ [key]) child else [])
      ++ passwordPathsOf path rest

end

/-! ## Checking a value -/

def number? : Json → Option Rat
  | .bool b => some (if b then 1 else 0)
  | .int i => some i
  | .float q => some q
  | _ => none

mutual

/-- `==`. -/
def same : Json → Json → Bool
  | .null, .null => true
  | .str a, .str b => a = b
  | .list xs, .list ys => sameItems xs ys
  | .dict xs, .dict ys => xs.length = ys.length && sameFields xs ys
  | v, w =>
    match number? v, number? w with
    | some a, some b => a = b
    | _, _ => false

def sameItems : List Json → List Json → Bool
  | [], [] => true
  | x :: xs, y :: ys => same x y && sameItems xs ys
  | _, _ => false

def sameFields : List (String × Json) → List (String × Json) → Bool
  | [], _ => true
  | (key, x) :: xs, ys =>
    (match Dict.get? ys key with
      | some y => same x y
      | none => false) && sameFields xs ys

end

/-- The scheme that `urlparse` finds is not empty. -/
def hasScheme (text : String) : Bool :=
  let url := (text.toList.dropWhile (fun c => decide (c.toNat ≤ 32))).filter
    (fun c => c ≠ '\t' ∧ c ≠ '\n' ∧ c ≠ '\r')
  let scheme := url.takeWhile (· ≠ ':')
  decide (scheme.length < url.length)
    && (match scheme.head? with
        | none => false
        | some c => decide (c.toNat < 128) && c.isAlpha)
    && scheme.all (fun c => c.isAlphanum || c = '+' || c = '-' || c = '.')

/-- The type checks of `_normalize` on a leaf. -/
def checkKind (keywords : Keywords) (value : Json) (path : String) : Except String Unit :=
  match keywords.kind, value with
  | .string, .str text =>
    if keywords.format = some .uri ∧ hasScheme text = false then
      .error (path ++ " 必须是 URI")
    else .ok ()
  | .string, _ => .error (path ++ " 必须是 string")
  | .boolean, .bool _ => .ok ()
  | .boolean, _ => .error (path ++ " 必须是 boolean")
  | .integer, .int _ => .ok ()
  | .integer, _ => .error (path ++ " 必须是 integer")
  | .number, .int _ => .ok ()
  | .number, .float _ => .ok ()
  | .number, _ => .error (path ++ " 必须是 number")
  | .array, .list items =>
    if items.all (fun item => match item with
      | .str _ => true
      | _ => false) then .ok ()
    else .error (path ++ " 必须是 string array")
  | .array, _ => .error (path ++ " 必须是 string array")
  | .object, _ => .ok ()

/-- The checks of `_normalize` behind the type: the enumeration and the bounds,
which only numbers have. -/
def checkBounds (keywords : Keywords) (value : Json) (path : String) : Except String Unit :=
  if keywords.enum.any (fun allowed => !allowed.any (same value)) then
    .error (path ++ " 不在允许的 enum 中")
  else if keywords.minimum.any (fun bound => (number? value).any (fun n => decide (n < bound))) then
    .error (path ++ " 小于 minimum")
  else if keywords.maximum.any (fun bound => (number? value).any (fun n => decide (bound < n))) then
    .error (path ++ " 大于 maximum")
  else .ok ()

def unknownKeys (properties : Properties) (fields : List (String × Json)) : List String :=
  (Dict.keys fields).filter (fun key => decide (key ∉ properties.keys))

mutual

/-- `_normalize` of a value that is not missing. -/
def normalize : Schema → Json → String → Except String Json
  | .mk keywords properties, value, path =>
    if keywords.kind = .object then
      match value with
      | .dict fields =>
        match unknownKeys properties fields with
        | [] => (normalizeFields keywords.required properties fields path).map .dict
        | unknown =>
          .error (path ++ " 包含未知配置项: " ++ ", ".intercalate (unknown.mergeSort (· ≤ ·)))
      | _ => .error (path ++ " 必须是 object")
    else
      match checkKind keywords value path with
      | .error e => .error e
      | .ok _ =>
        match checkBounds keywords value path with
        | .error e => .error e
        | .ok _ => .ok value

def normalizeFields (required : List String) :
    Properties → List (String × Json) → String → Except String (List (String × Json))
  | .nil, _, _ => .ok []
  | .cons key child rest, fields, path =>
    match Dict.get? fields key <|> child.keywords.default with
    | none =>
      if key ∈ required then .error (path ++ "." ++ key ++ " 是必填配置")
      else normalizeFields required rest fields path
    | some value =>
      match normalize child value (path ++ "." ++ key) with
      | .error e => .error e
      | .ok value =>
        match normalizeFields required rest fields path with
        | .error e => .error e
        | .ok others => .ok ((key, value) :: others)

end

mutual

/-- `_sparse_schema`: nothing is required and nothing has a default. -/
def sparse : Schema → Schema
  | .mk keywords properties =>
    if keywords.kind = .object then
      .mk { keywords with default := none, required := [] } (sparseAll properties)
    else .mk { keywords with default := none } properties

def sparseAll : Properties → Properties
  | .nil => .nil
  | .cons key child rest => .cons key (sparse child) (sparseAll rest)

end

/-- `validate_plugin_settings`. -/
def validate (schema : Schema) (values : List (String × Json)) : Except String Json :=
  normalize schema (.dict values) "$"

/-- `validate_sparse_plugin_settings`. -/
def validateSparse (schema : Schema) (values : List (String × Json)) : Except String Json :=
  normalize (sparse schema) (.dict values) "$"

/-! ## Redaction -/

mutual

/-- `redact_plugin_settings`. -/
def redact (sensitive : List Path) (path : Path) : Schema → Json → List (String × Json)
  | .mk keywords properties, value =>
    if keywords.kind = .object then
      match value with
      | .dict fields => redactFields sensitive path properties fields
      | _ => []
    else []

def redactFields (sensitive : List Path) (path : Path) :
    Properties → List (String × Json) → List (String × Json)
  | .nil, _ => []
  | .cons key child rest, fields =>
    match Dict.get? fields key with
    | none => redactFields sensitive path rest fields
    | some value =>
      (key, if path ++ [key] ∈ sensitive ∨ child.isPassword then .str ""
        else if child.isObject then .dict (redact sensitive (path ++ [key]) child value)
        else value) :: redactFields sensitive path rest fields

end

mutual

/-- `_legacy_string_paths`: every path at which there is a text. -/
def legacyPaths (path : Path) : Json → List Path
  | .str _ => [path]
  | .dict fields => legacyPathsOf path fields
  | _ => []

def legacyPathsOf (path : Path) : List (String × Json) → List Path
  | [] => []
  | (key, value) :: rest => legacyPaths (path ++ [key]) value ++ legacyPathsOf path rest

end

/-! ## Values that differ in hidden places -/

mutual

/-- The values differ in hidden places only. -/
inductive AgreeOff (Hidden : Path → Prop) : Path → Json → Json → Prop
  | hidden {path : Path} {v w : Json} : Hidden path → AgreeOff Hidden path v w
  | same {path : Path} {v : Json} : AgreeOff Hidden path v v
  | dict {path : Path} {fs gs : List (String × Json)} :
      FieldsOff Hidden path fs gs → AgreeOff Hidden path (.dict fs) (.dict gs)

inductive FieldsOff (Hidden : Path → Prop) :
    Path → List (String × Json) → List (String × Json) → Prop
  | nil {path : Path} : FieldsOff Hidden path [] []
  | cons {path : Path} {key : String} {v w : Json} {fs gs : List (String × Json)} :
      AgreeOff Hidden (path ++ [key]) v w → FieldsOff Hidden path fs gs →
      FieldsOff Hidden path ((key, v) :: fs) ((key, w) :: gs)

end

/-- The fields of two values that agree, by their keys. -/
structure FieldsAgree (Hidden : Path → Prop) (path : Path) (fs gs : List (String × Json)) :
    Prop where
  present : ∀ key, Dict.get? fs key = none ↔ Dict.get? gs key = none
  agree : ∀ key v w, Dict.get? fs key = some v → Dict.get? gs key = some w →
    AgreeOff Hidden (path ++ [key]) v w

lemma FieldsAgree.refl (Hidden : Path → Prop) (path : Path) (fs : List (String × Json)) :
    FieldsAgree Hidden path fs fs where
  present _ := Iff.rfl
  agree _ _ _ hv hw := some.inj (hv.symm.trans hw) ▸ .same

variable {path : Path} {Hidden : Path → Prop} {properties : Properties} {v n : Json}

lemma FieldsOff.agree :
    ∀ {fs gs : List (String × Json)}, FieldsOff Hidden path fs gs → FieldsAgree Hidden path fs gs
  | _, _, .nil => FieldsAgree.refl Hidden path []
  | _, _, @FieldsOff.cons _ _ key _ _ _ _ hvalue hrest => by
    have ih := hrest.agree
    constructor
    · intro other
      rw [Dict.get?_cons, Dict.get?_cons]
      by_cases hkey : key = other
      · rw [if_pos hkey, if_pos hkey]
        constructor
        all_goals
          intro h
          cases h
      rw [if_neg hkey, if_neg hkey]
      exact ih.present other
    intro other v w hv hw
    rw [Dict.get?_cons] at hv hw
    by_cases hkey : key = other
    · rw [if_pos hkey] at hv hw
      obtain rfl := some.inj hv
      obtain rfl := some.inj hw
      exact hkey ▸ hvalue
    rw [if_neg hkey] at hv hw
    exact ih.agree other v w hv hw

lemma AgreeOff.fields {fs gs : List (String × Json)}
    (h : AgreeOff Hidden path (.dict fs) (.dict gs)) (hshown : ¬ Hidden path) :
    FieldsAgree Hidden path fs gs := by
  cases h with
  | hidden hhidden => exact absurd hhidden hshown
  | same => exact FieldsAgree.refl Hidden path fs
  | dict hfields => exact hfields.agree

section
variable {Hidden : Path → Prop}

mutual

lemma AgreeOff.eq (hnone : ∀ path, ¬ Hidden path) :
    ∀ {path : Path} {v w : Json}, AgreeOff Hidden path v w → v = w
  | path, _, _, .hidden hhidden => absurd hhidden (hnone path)
  | _, _, _, .same => rfl
  | _, _, _, .dict hfields => congrArg Json.dict (hfields.eq hnone)

lemma FieldsOff.eq (hnone : ∀ path, ¬ Hidden path) :
    ∀ {path : Path} {fs gs : List (String × Json)}, FieldsOff Hidden path fs gs → fs = gs
  | _, _, _, .nil => rfl
  | _, _, _, .cons hvalue hrest => by rw [hvalue.eq hnone, hrest.eq hnone]

end
end

lemma keywords_sparse (schema : Schema) : (sparse schema).keywords.kind = schema.keywords.kind
      ∧ (sparse schema).keywords.default = none := by
  cases schema with
  | mk =>
    rw [sparse]
    split
    all_goals exact ⟨rfl, rfl⟩

lemma checkKind_dict {keywords : Keywords} (hkind : keywords.kind ≠ .object)
    (fields : List (String × Json)) (text : String) :
    ∃ e, checkKind keywords (.dict fields) text = .error e := by
  unfold checkKind
  cases h : keywords.kind with
  | object => exact absurd h hkind
  | _ => exact ⟨_, rfl⟩

lemma normalize_leaf {keywords : Keywords} {text : String} (hkind : keywords.kind ≠ .object)
    (h : normalize (.mk keywords properties) v text = .ok n) :
    n = v ∧ ∀ fields, v ≠ .dict fields := by
  unfold normalize at h
  rw [if_neg hkind] at h
  split at h
  · cases h
  next hok =>
  split at h
  · cases h
  refine ⟨(ok.inj h).symm, ?_⟩
  rintro fields rfl
  obtain ⟨_, he⟩ := checkKind_dict hkind fields text
  rw [he] at hok
  cases hok

lemma normalize_object {keywords : Keywords} {text : String} (hkind : keywords.kind = .object)
    (h : normalize (.mk keywords properties) v text = .ok n) :
    ∃ fields kept, v = .dict fields ∧ n = .dict kept
      ∧ normalizeFields keywords.required properties fields text = .ok kept := by
  unfold normalize at h
  rw [if_pos hkind] at h
  split at h
  · next fields =>
    split at h
    · cases hfields : normalizeFields keywords.required properties fields text with
      | error =>
        rw [hfields] at h
        cases h
      | ok kept =>
        rw [hfields] at h
        exact ⟨fields, kept, rfl, (ok.inj h).symm, hfields⟩
    cases h
  cases h

lemma normalizeFields_cons {required : List String} {key : String} {child : Schema}
    {rest : Properties} {fields kept : List (String × Json)} {text : String}
    (h : normalizeFields required (.cons key (sparse child) rest) fields text = .ok kept) :
    (Dict.get? fields key = none ∧ normalizeFields required rest fields text = .ok kept)
      ∨ ∃ v n others, Dict.get? fields key = some v
        ∧ normalize (sparse child) v (text ++ "." ++ key) = .ok n
        ∧ normalizeFields required rest fields text = .ok others ∧ kept = (key, n) :: others := by
  rw [normalizeFields, (keywords_sparse child).2] at h
  cases hget : Dict.get? fields key with
  | none =>
    simp only [hget] at h
    split at h
    · next hnone =>
      split at h
      · cases h
      exact .inl ⟨rfl, h⟩
    · next hsome => cases hsome
  | some v =>
    simp only [hget] at h
    split at h
    · next hnone => cases hnone
    next w hsome =>
    obtain rfl : v = w := some.inj hsome
    split at h
    · cases h
    next n hn =>
    split at h
    · cases h
    next others hothers =>
    exact .inr ⟨v, n, others, rfl, hn, hothers, (ok.inj h).symm⟩

lemma normalizeFields_keys {required : List String} :
    ∀ (properties : Properties) {fields kept : List (String × Json)} {text : String},
      normalizeFields required (sparseAll properties) fields text = .ok kept →
      ∀ key, key ∉ properties.keys → Dict.get? kept key = none
  | .nil, _, _, _, h, _, _ => by
    obtain rfl := ok.inj h
    rfl
  | .cons key child rest, fields, kept, text, h, other, hother => by
    rw [Properties.keys, mem_cons, not_or] at hother
    rcases normalizeFields_cons h with ⟨-, hrest⟩ | ⟨_, _, _, -, -, hrest, rfl⟩
    · exact normalizeFields_keys rest hrest other hother.2
    rw [Dict.get?_cons, if_neg (fun heq => hother.1 heq.symm)]
    exact normalizeFields_keys rest hrest other hother.2

lemma redactFields_cons {sensitive : List Path} {path : Path} {key : String} (v : Json)
    (fields : List (String × Json)) : ∀ properties : Properties, key ∉ properties.keys →
      redactFields sensitive path properties ((key, v) :: fields)
        = redactFields sensitive path properties fields
  | .nil, _ => rfl
  | .cons other child rest, hkey => by
    rw [Properties.keys, mem_cons, not_or] at hkey
    simp only [redactFields, Dict.get?_cons, if_neg hkey.1, redactFields_cons v fields rest hkey.2]

section
variable {Hidden : Path → Prop} {sensitive : List Path}

mutual

lemma normalize_redact (hsensitive : ∀ path, Hidden path → path ∈ sensitive) :
    ∀ (schema : Schema), schema.Distinct → ∀ {path : Path} {v w n m : Json} {text : String},
    AgreeOff Hidden path v w → ¬ Hidden path →
    normalize (sparse schema) v text = .ok n → normalize (sparse schema) w text = .ok m →
    redact sensitive path schema n = redact sensitive path schema m
      ∧ (schema.isObject = false → n = m)
  | .mk keywords properties, hdistinct, path, v, w, n, m, text, hagree, hshown, hn, hm => by
    rw [sparse] at hn hm
    by_cases hkind : keywords.kind = .object
    · rw [if_pos hkind] at hn hm
      obtain ⟨_, _, rfl, rfl, hns⟩ := normalize_object (by exact hkind) hn
      obtain ⟨_, _, rfl, rfl, hms⟩ := normalize_object (by exact hkind) hm
      have hsame := normalizeFields_redact hsensitive properties hdistinct (hagree.fields hshown) hns hms
      constructor
      · simp only [redact, if_pos hkind]
        exact hsame
      intro hleaf
      rw [Schema.isObject, decide_eq_false_iff_not] at hleaf
      exact absurd hkind hleaf
    rw [if_neg hkind] at hn hm
    obtain ⟨rfl, hv⟩ := normalize_leaf (by exact hkind) hn
    obtain ⟨rfl, -⟩ := normalize_leaf (by exact hkind) hm
    cases hagree with
    | hidden hhidden => exact absurd hhidden hshown
    | same => exact ⟨rfl, fun _ => rfl⟩
    | dict => exact absurd rfl (hv _)

lemma normalizeFields_redact (hsensitive : ∀ path, Hidden path → path ∈ sensitive) :
    ∀ (properties : Properties), properties.Distinct →
    ∀ {path : Path} {fs gs ns ms : List (String × Json)} {required : List String} {text : String},
    FieldsAgree Hidden path fs gs →
    normalizeFields required (sparseAll properties) fs text = .ok ns →
    normalizeFields required (sparseAll properties) gs text = .ok ms →
    redactFields sensitive path properties ns = redactFields sensitive path properties ms
  | .nil, _, _, _, _, _, _, _, _, _, _, _ => rfl
  | .cons key child rest, hdistinct, path, fs, gs, ns, ms, required, text, hagree, hns, hms => by
    obtain ⟨hkey, hchild, hrest⟩ := hdistinct
    rcases normalizeFields_cons hns with ⟨hfs, hns'⟩ | ⟨v, _, _, hfs, hn, hns', rfl⟩
    · rcases normalizeFields_cons hms with ⟨-, hms'⟩ | ⟨w, -, -, hgs, -, -, -⟩
      · have hsame := normalizeFields_redact hsensitive rest hrest hagree hns' hms'
        simp only [redactFields, normalizeFields_keys rest hns' key hkey,
          normalizeFields_keys rest hms' key hkey]
        exact hsame
      rw [(hagree.present key).mp hfs] at hgs
      cases hgs
    rcases normalizeFields_cons hms with ⟨hgs, -⟩ | ⟨w, _, _, hgs, hm, hms', rfl⟩
    · rw [(hagree.present key).mpr hgs] at hfs
      cases hfs
    have hsame := normalizeFields_redact hsensitive rest hrest hagree hns' hms'
    simp only [redactFields, Dict.get?_cons, if_true, redactFields_cons _ _ rest hkey, hsame]
    by_cases hblank : path ++ [key] ∈ sensitive ∨ child.isPassword = true
    · rw [if_pos hblank, if_pos hblank]
    rw [if_neg hblank, if_neg hblank]
    -- not blanked, so not hidden
    have hshown : ¬ Hidden (path ++ [key]) :=
      fun hhidden => hblank (.inl (hsensitive _ hhidden))
    have hvalue := normalize_redact hsensitive child hchild (hagree.agree key v w hfs hgs)
      hshown hn hm
    cases hobject : child.isObject with
    | true => simp only [if_true, hvalue.1]
    | false => simp only [Bool.false_eq_true, if_false, hvalue.2 hobject]

end
end

/-! ## The store -/

/-- The two files of a plugin. -/
structure Stored where
  values : Option (List (String × Json)) := none
  sensitive : Option (List Path) := none

def Stored.sensitivePaths (stored : Stored) (schema : Schema) (values : List (String × Json)) :
    List Path :=
  match stored.sensitive with
  | some historical => historical ++ passwordPaths [] schema
  | none =>
    if stored.values.isSome then passwordPaths [] schema ++ legacyPaths [] (.dict values)
    else passwordPaths [] schema

/-- The settings of `_build_record`: what is accepted of the stored document,
redacted; an error shows no settings. -/
def Stored.projected (stored : Stored) (schema : Schema) :
    Except String (List (String × Json)) :=
  let raw := stored.values.getD []
  (validateSparse schema raw).map (redact (stored.sensitivePaths schema raw) [] schema)

mutual

/-- `_preserve_passwords`. -/
def preserve : Schema → Json → Option Json → Json
  | .mk keywords properties, value, existing =>
    if keywords.kind = .object then
      match value with
      | .dict fields => .dict (preserveFields properties fields (match existing with
          | some (.dict saved) => saved
          | _ => []))
      | value => value
    else value

def preserveFields : Properties → List (String × Json) → List (String × Json) →
    List (String × Json)
  | .nil, fields, _ => fields
  | .cons key child rest, fields, saved =>
    match Dict.get? fields key with
    | none => preserveFields rest fields saved
    | some value =>
      let kept :=
        if child.isPassword && same value (.str "") && (Dict.get? saved key).isSome then
          (Dict.get? saved key).getD value
        else if child.isObject then preserve child value (Dict.get? saved key)
        else value
      preserveFields rest (Dict.set fields key kept) saved

end

/-- `resolve_applied_plugin_settings`: what the environment gives is not
required and has no default. -/
def runtimeProperties (environment : String → Bool) : Properties → List (String × Json) → Properties
  | .nil, _ => .nil
  | .cons key (.mk keywords properties) rest, values =>
    .cons key
      (if (Dict.get? values key).isNone && (environment key || environment (key ++ "_FILE")) then
        .mk { keywords with default := none } properties
      else .mk keywords properties)
      (runtimeProperties environment rest values)

def resolveApplied (environment : String → Bool) (schema : Schema)
    (values : List (String × Json)) : Except String Json :=
  match schema with
  | .mk keywords properties =>
    let required := keywords.required.filter (fun key =>
      (Dict.get? values key).isSome || !(environment key || environment (key ++ "_FILE")))
    validate (.mk { keywords with required := required }
      (runtimeProperties environment properties values)) values

/-- What a save meets of the world: the environment, and whether each of the two
files can be written. -/
structure Surroundings where
  environment : String → Bool
  paths : Bool
  values : Bool

/-- `PluginConfigStore.save`: the files after it, and whether it succeeded. -/
def Stored.save (stored : Stored) (schema : Schema) (values : List (String × Json))
    (w : Surroundings) : Stored × Bool :=
  match preserve schema (.dict values) (some (.dict (stored.values.getD []))) with
  | .dict values =>
    match validateSparse schema values with
    | .ok (.dict normalized) =>
      match resolveApplied w.environment schema normalized with
      | .error _ => (stored, false)
      | .ok _ =>
        if w.paths then
          let stored := { stored with
            sensitive := some (stored.sensitive.getD [] ++ passwordPaths [] schema) }
          if w.values then ({ stored with values := some normalized }, true)
          else (stored, false)
        else (stored, false)
    | _ => (stored, false)
  | _ => (stored, false)

/-- A save under a schema. -/
structure Save where
  schema : SettingsSchema
  values : List (String × Json)
  surroundings : Surroundings

/-- The files, with the schemas under which a save was made. -/
structure History where
  stored : Stored
  made : List SettingsSchema := []

def History.save (h : History) (save : Save) : History :=
  let saved := h.stored.save save.schema.schema save.values save.surroundings
  { stored := saved.1, made := if saved.2 then h.made ++ [save.schema] else h.made }

def History.Secret (h : History) (path : Path) : Prop :=
  ∃ schema ∈ h.made, path ∈ passwordPaths [] schema.schema

def History.Remembers (h : History) : Prop :=
  ∀ path, h.Secret path → ∃ paths, h.stored.sensitive = some paths ∧ path ∈ paths

lemma Stored.save_sensitive (stored : Stored) (schema : Schema)
    (values : List (String × Json)) (w : Surroundings) : (∀ paths, stored.sensitive = some paths →
        ∃ paths', (stored.save schema values w).1.sensitive = some paths' ∧ paths ⊆ paths')
      ∧ ((stored.save schema values w).2 = true →
        ∃ paths', (stored.save schema values w).1.sensitive = some paths'
          ∧ passwordPaths [] schema ⊆ paths') := by
  have hsame : ∀ paths, stored.sensitive = some paths →
      ∃ paths', stored.sensitive = some paths' ∧ paths ⊆ paths' :=
    fun paths h => ⟨paths, h, List.Subset.refl paths⟩
  have hmore : ∀ paths, stored.sensitive = some paths →
      paths ⊆ stored.sensitive.getD [] ++ passwordPaths [] schema := by
    intro paths h
    rw [h]
    exact subset_append_left paths _
  rw [Stored.save]
  split
  · split
    · split
      · exact ⟨hsame, fun h => absurd h Bool.false_ne_true⟩
      split
      · simp only
        split
        · exact ⟨fun paths h => ⟨_, rfl, hmore paths h⟩,
            fun _ => ⟨_, rfl, subset_append_right _ _⟩⟩
        exact ⟨fun paths h => ⟨_, rfl, hmore paths h⟩, fun h => absurd h Bool.false_ne_true⟩
      exact ⟨hsame, fun h => absurd h Bool.false_ne_true⟩
    exact ⟨hsame, fun h => absurd h Bool.false_ne_true⟩
  exact ⟨hsame, fun h => absurd h Bool.false_ne_true⟩

variable {h : History}

lemma save_remembers (hr : h.Remembers) (save : Save) : (h.save save).Remembers := by
  obtain ⟨hkept, hadded⟩ := Stored.save_sensitive h.stored save.schema.schema save.values
    save.surroundings
  rintro path ⟨schema, hschema, hpath⟩
  have hold : schema ∈ h.made → ∃ paths,
      (h.save save).stored.sensitive = some paths ∧ path ∈ paths := by
    intro hmade
    obtain ⟨paths, hpaths, hmem⟩ := hr path ⟨schema, hmade, hpath⟩
    obtain ⟨paths', hpaths', hsub⟩ := hkept paths hpaths
    exact ⟨paths', hpaths', hsub hmem⟩
  rw [History.save] at hschema
  split at hschema
  · next hok =>
    rcases mem_append.mp hschema with hmade | hnew
    · exact hold hmade
    obtain rfl := mem_singleton.mp hnew
    obtain ⟨paths', hpaths', hsub⟩ := hadded hok
    exact ⟨paths', hpaths', hsub hpath⟩
  exact hold hschema

lemma saves_remember (saves : List Save) (hr : h.Remembers) :
    (saves.foldl History.save h).Remembers := by
  induction saves generalizing h with
  | nil => exact hr
  | cons save rest ih => exact ih (save_remembers hr save)

mutual

lemma passwordPaths_ne_nil : ∀ (schema : Schema) (path : Path), ∀ p ∈ passwordPaths path schema,
    p ≠ []
  | .mk keywords properties, path, p, hp => by
    rw [passwordPaths] at hp
    split at hp
    · exact passwordPathsOf_ne_nil properties path p hp
    cases hp

lemma passwordPathsOf_ne_nil : ∀ (properties : Properties) (path : Path),
    ∀ p ∈ passwordPathsOf path properties, p ≠ []
  | .nil, _, p, hp => by cases hp
  | .cons key child rest, path, p, hp => by
    rw [passwordPathsOf] at hp
    rcases mem_append.mp hp with hhead | hrest
    · split at hhead
      · rw [mem_singleton.mp hhead]
        exact append_ne_nil_of_right_ne_nil path (cons_ne_nil key [])
      split at hhead
      · exact passwordPaths_ne_nil child (path ++ [key]) p hhead
      cases hhead
    exact passwordPathsOf_ne_nil rest path p hrest

end

lemma projected_ok {stored : Stored} {schema : Schema} {shown : List (String × Json)}
    (h : stored.projected schema = .ok shown) :
    ∃ n, validateSparse schema (stored.values.getD []) = .ok n
      ∧ shown = redact (stored.sensitivePaths schema (stored.values.getD [])) [] schema n := by
  rw [Stored.projected] at h
  cases hn : validateSparse schema (stored.values.getD []) with
  | error =>
    simp only [hn] at h
    cases h
  | ok n =>
    simp only [hn] at h
    exact ⟨n, rfl, (ok.inj h).symm⟩

def text (format : Option Format) : Schema := .mk { kind := .string, format := format } .nil

def serviceAs (child : Schema) (h : child.Distinct) : SettingsSchema where
  schema := .mk { kind := .object } (.cons "service" child .nil)
  distinct := ⟨List.not_mem_nil, h, trivial⟩

def secretAs (format : Option Format) : SettingsSchema :=
  serviceAs (.mk { kind := .object } (.cons "secret" (text format) .nil))
    ⟨List.not_mem_nil, trivial, trivial⟩

def withSecret (secret : String) : List (String × Json) :=
  [("service", .dict [("secret", .str secret)])]

def savedSecret : Save where
  schema := secretAs (some .password)
  values := withSecret "alpha"
  surroundings := { environment := fun _ => false, paths := true, values := true }

def afterSecret : History := [savedSecret].foldl History.save { stored := {} }

lemma withSecret_agree (secret : String) :
    AgreeOff afterSecret.Secret [] (.dict (withSecret "alpha")) (.dict (withSecret secret)) := by
  have hsecret : afterSecret.Secret ["service", "secret"] :=
    ⟨secretAs (some .password), mem_cons_self, by decide⟩
  exact .dict (.cons (.dict (.cons (.hidden hsecret) .nil)) .nil)

end DeterminFlow.Plugins.Settings
