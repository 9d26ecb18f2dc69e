/-
  Pricing.EffectiveWindows
  **THE WINDOW A RULE WAS VALIDATED WITH.**

  Validation reads a timestamp without an offset in the zone of its rule,
  selection reads it in the zone of the table.  The ids of a valid table are
  distinct, so the order of the rules never matters; the window of the selected
  rule can miss the call.
-/
import DeterminFlow.Pricing.Charges

namespace DeterminFlow.Pricing

open Library Outcome List Option Except

section
variable {F : Type} (fmt : PyFormat F) (zones : Zones)

/-! ## Two readings of a window -/

def tableTz (config : Config F) : String := (zoneinfo zones config.timezone).getD "UTC"

/-- The window contains the time, when `tz` is the zone of the timestamps
without an offset. -/
def WindowContains (tz : String) (rule : Dict String (PyJson F)) (time : DateTime) : Prop :=
  (∀ effectiveFrom ∈ windowEnd tz "effective_from" rule,
      effectiveFrom.instant zones ≤ time.instant zones)
    ∧ ∀ effectiveTo ∈ windowEnd tz "effective_to" rule,
      time.instant zones < effectiveTo.instant zones

instance (tz : String) (rule : Dict String (PyJson F)) (time : DateTime) :
    Decidable (WindowContains zones tz rule time) := inferInstanceAs (Decidable (_ ∧ _))

def InForce (config : Config F) (rule : Dict String (PyJson F)) (time : DateTime) : Prop :=
  WindowContains zones ((ruleTz zones (tableTz zones config) rule).getD (tableTz zones config)) rule
    time

instance (config : Config F) (rule : Dict String (PyJson F)) (time : DateTime) :
    Decidable (InForce zones config rule time) := inferInstanceAs (Decidable (WindowContains ..))

def selected (config : Config F) (call : Dict String (PyJson F)) (time : DateTime) :
    Except PyError (Option (Dict String (PyJson F))) :=
  selectRule fmt zones config.rules call time (tableTz zones config)

/-- **What selection promises**: the selected rule is in force, and the order of
the rules does not matter. -/
def SelectsInForce (config : Config F) (call : Dict String (PyJson F)) (time : DateTime) : Prop :=
  (∀ rule, selected fmt zones config call time = .ok (some rule) → InForce zones config rule time)
    ∧ ∀ rules, rules.Perm config.rules →
      selected fmt zones { config with rules := rules } call time = selected fmt zones config call time

def Fits (config : Config F) (call : Dict String (PyJson F)) (time : DateTime)
    (rule : Dict String (PyJson F)) : Prop :=
  fitsCall fmt zones call time (tableTz zones config) rule = .ok true

def Raises (config : Config F) (call : Dict String (PyJson F)) (time : DateTime)
    (rule : Dict String (PyJson F)) : Prop :=
  ∃ e, fitsCall fmt zones call time (tableTz zones config) rule = .error e

/-- Every rule that fits without being in force is outranked by another one, or
nothing is selected at all. -/
def StaleOutranked (config : Config F) (call : Dict String (PyJson F)) (time : DateTime) : Prop :=
  ∀ rule, .dict rule ∈ config.rules → Fits fmt zones config call time rule →
    ¬ InForce zones config rule time →
      (∃ other, .dict other ∈ config.rules ∧ Fits fmt zones config call time other
        ∧ effectiveSortKey fmt zones (tableTz zones config) rule
          < effectiveSortKey fmt zones (tableTz zones config) other)
      ∨ ∃ other, .dict other ∈ config.rules ∧ Raises fmt zones config call time other

end

section
variable {F : Type} {fmt : PyFormat F} {zones : Zones}

/-! ## The ids of a valid table -/

def ruleId (fmt : PyFormat F) : PyJson F → String
  | .dict rule => (PyJson.getD rule "id" (.str "")).toText fmt
  | _ => ""

lemma getD_of_str {entries : Dict String (PyJson F)} {key text : String} {other : PyJson F}
    (h : PyJson.getD entries key .null = .str text) : PyJson.getD entries key other = .str text := by
  unfold PyJson.getD at h ⊢
  cases hget : entries.get? key with
  | none =>
    rw [hget] at h
    cases h
  | some =>
    rw [hget] at h
    exact h

variable {rule : Dict String (PyJson F)} {seen' : List String} {index : Nat} {configTz : String}
  {rules : List (PyJson F)} {e : PyError}

lemma idErrors_nil (fmt : PyFormat F) {head : String} {seen : List String}
    (h : idErrors head seen rule = ([], seen')) :
    ruleId fmt (.dict rule) ∉ seen ∧ seen' = seen ++ [ruleId fmt (.dict rule)] := by
  unfold idErrors at h
  split at h
  · next text hid =>
    have htext : ruleId fmt (.dict rule) = text := by
      show (PyJson.getD rule "id" (.str "")).toText fmt = text
      rw [getD_of_str hid]
      rfl
    rw [htext]
    split at h
    · cases (Prod.mk.inj h).1
    split at h
    · cases (Prod.mk.inj h).1
    · next hnew => exact ⟨hnew, (Prod.mk.inj h).2.symm⟩
  cases (Prod.mk.inj h).1

lemma ruleErrors_nil {seen : List String} {rule : PyJson F}
    (h : ruleErrors fmt zones configTz seen index rule = .ok ([], seen')) :
    (∃ entries, rule = .dict entries) ∧ ruleId fmt rule ∉ seen ∧ seen' = seen ++ [ruleId fmt rule] := by
  cases rule with
  | dict entries =>
    obtain ⟨_, -, h⟩ := bind_eq_ok_iff.1 h
    have hpair := Prod.mk.inj (pure_eq_ok_iff.1 h)
    -- the errors of the id are the first of the list
    have hids : (idErrors s!"rules[{index}]" seen entries).1 = [] := by
      have hall := hpair.1
      simp only [append_eq_nil_iff] at hall
      exact hall.1.1.1.1.1.1
    have hseen := idErrors_nil fmt (Prod.ext hids hpair.2)
    exact ⟨⟨entries, rfl⟩, hseen⟩
  | _ => cases (Prod.mk.inj (ok.inj h)).1

lemma rulesErrors_nil {seen : List String}
    (h : rulesErrors fmt zones configTz rules index seen = .ok []) :
    (rules.map (ruleId fmt)).Nodup ∧ ∀ id ∈ rules.map (ruleId fmt), id ∉ seen := by
  induction rules generalizing index seen with
  | nil => exact ⟨nodup_nil, nofun⟩
  | cons rule rules ih =>
    obtain ⟨⟨_, _⟩, hrule, h⟩ := bind_eq_ok_iff.1 h
    obtain ⟨_, hrest, h⟩ := bind_eq_ok_iff.1 h
    obtain ⟨rfl, rfl⟩ := append_eq_nil_iff.1 (pure_eq_ok_iff.1 h)
    obtain ⟨-, hnew, rfl⟩ := ruleErrors_nil hrule
    obtain ⟨hnodup, hapart⟩ := ih hrest
    constructor
    · apply nodup_cons.2 ⟨_, hnodup⟩
      intro hid
      exact hapart _ hid (mem_append_right _ mem_cons_self)
    intro id hid
    rcases mem_cons.1 hid with rfl | hid
    · exact hnew
    exact fun hseen => hapart id hid (mem_append_left _ hseen)

lemma validate_nil {raw : PyJson F} {config : Config F}
    (h : validatePricingConfig fmt zones raw = .ok (config, [])) :
    zoneinfo zones config.timezone = some (tableTz zones config)
      ∧ rulesErrors fmt zones (tableTz zones config) config.rules 0 [] = .ok [] := by
  cases raw with
  | dict entries =>
    unfold validatePricingConfig at h
    simp only at h
    split at h
    · obtain ⟨_, hfound, h⟩ := bind_eq_ok_iff.1 h
      have hpair := Prod.mk.inj (pure_eq_ok_iff.1 h)
      obtain ⟨hfields, rfl⟩ := append_eq_nil_iff.1 hpair.2
      obtain ⟨hzone, -⟩ := append_eq_nil_iff.1 hfields
      obtain ⟨-, hzone⟩ := append_eq_nil_iff.1 hzone
      rw [← hpair.1]
      refine ⟨?_, hfound⟩
      show zoneinfo zones (PyJson.getD entries "timezone" _) = some ((zoneinfo zones _).getD "UTC")
      cases hread : zoneinfo zones (PyJson.getD entries "timezone" (.str "UTC")) with
      | none =>
        rw [hread] at hzone
        cases hzone
      | some => rfl
    have hpair := Prod.mk.inj (ok.inj h)
    cases (append_eq_nil_iff.1 hpair.2).2
  | _ => cases (Prod.mk.inj (ok.inj h)).2

lemma validate_ids {raw : PyJson F} {config : Config F}
    (h : validatePricingConfig fmt zones raw = .ok (config, [])) :
    (config.rules.map (ruleId fmt)).Nodup := (rulesErrors_nil (validate_nil h).2).1

lemma callTz_eq {raw : PyJson F} {config : Config F}
    (h : validatePricingConfig fmt zones raw = .ok (config, [])) :
    zoneinfo zones (.str (config.timezone.toText fmt) : PyJson F) = some (tableTz zones config) := by
  have hzone := (validate_nil h).1
  cases htimezone : config.timezone with
  | str =>
    rw [htimezone] at hzone
    exact hzone
  | _ => rw [htimezone] at hzone; cases hzone

/-! ## Which rules fit -/

lemma checkRange_error {micros : Int} (h : DateTime.checkRange micros = .error e) :
    e = .overflowError := by
  unfold DateTime.checkRange at h
  split at h
  · cases h
  exact (error.inj h).symm

lemma windowEndUtc_error {tz field : String} (h : windowEndUtc zones tz field rule = .error e) :
    e = .overflowError := by
  unfold windowEndUtc at h
  split at h
  · cases h
  rcases bind_eq_error_iff.1 h with h | ⟨utc, -, h⟩
  · exact checkRange_error h
  cases h

lemma fitsCall_error {call : Dict String (PyJson F)} {time : DateTime}
    (h : fitsCall fmt zones call time configTz rule = .error e) : e = .overflowError := by
  unfold fitsCall at h
  split at h
  · rcases bind_eq_error_iff.1 h with h | ⟨occurred, -, h⟩
    · exact checkRange_error h
    rcases bind_eq_error_iff.1 h with h | ⟨first, -, h⟩
    · exact windowEndUtc_error h
    split at h
    · cases h
    rcases bind_eq_error_iff.1 h with h | ⟨last, -, h⟩
    · exact windowEndUtc_error h
    cases h
  cases h

def fitting (fmt : PyFormat F) (zones : Zones) (call : Dict String (PyJson F)) (time : DateTime)
    (configTz : String) : PyJson F → Option (Dict String (PyJson F))
  | .dict rule =>
    match fitsCall fmt zones call time configTz rule with
    | .ok true => some rule
    | _ => none
  | _ => none

lemma fitting_eq_some_iff {call : Dict String (PyJson F)} {time : DateTime} {value : PyJson F} :
    fitting fmt zones call time configTz value = some rule
      ↔ value = .dict rule ∧ fitsCall fmt zones call time configTz rule = .ok true := by
  cases value with
  | dict entries =>
    show (match fitsCall fmt zones call time configTz entries with
      | .ok true => some entries
      | _ => none) = some rule ↔ _
    split
    · next hfits =>
      constructor
      · intro h
        obtain rfl := some.inj h
        exact ⟨rfl, hfits⟩
      intro h
      exact congrArg some (PyJson.dict.inj h.1)
    next hfits =>
    constructor
    · intro h
      cases h
    intro h
    obtain rfl := PyJson.dict.inj h.1
    exact absurd h.2 hfits
  | _ => exact iff_of_false (fun h => by cases h) (fun h => by cases h.1)

lemma mem_fitting {call : Dict String (PyJson F)} {time : DateTime} :
    rule ∈ rules.filterMap (fitting fmt zones call time configTz)
      ↔ .dict rule ∈ rules ∧ fitsCall fmt zones call time configTz rule = .ok true := by
  rw [mem_filterMap]
  constructor
  · intro h
    obtain ⟨_, hvalue, h⟩ := h
    obtain ⟨rfl, hfits⟩ := fitting_eq_some_iff.1 h
    exact ⟨hvalue, hfits⟩
  intro h
  exact ⟨.dict rule, h.1, fitting_eq_some_iff.2 ⟨rfl, h.2⟩⟩

def Comparable (fmt : PyFormat F) (zones : Zones) (call : Dict String (PyJson F)) (time : DateTime)
    (configTz : String) (rules : List (PyJson F)) : Prop :=
  ∀ rule, .dict rule ∈ rules → Returns (fitsCall fmt zones call time configTz rule)

lemma matchingRules_ok {call : Dict String (PyJson F)} {time : DateTime}
    (h : Comparable fmt zones call time configTz rules) :
    matchingRules fmt zones call time configTz rules
      = .ok (rules.filterMap (fitting fmt zones call time configTz)) := by
  induction rules with
  | nil => rfl
  | cons value rules ih =>
    have hrest := ih (fun rule hrule => h rule (mem_cons_of_mem _ hrule))
    cases value with
    | dict rule =>
      obtain ⟨fits, hfits⟩ := h rule mem_cons_self
      rw [matchingRules, hfits, hrest, filterMap_cons, fitting, hfits]
      cases fits with
      | _ => rfl
    | _ => exact hrest

lemma matchingRules_error {call : Dict String (PyJson F)} {time : DateTime}
    (hrule : .dict rule ∈ rules) (he : fitsCall fmt zones call time configTz rule = .error e) :
    matchingRules fmt zones call time configTz rules = .error .overflowError := by
  induction rules with
  | nil => cases hrule
  | cons value rules ih =>
    rcases mem_cons.1 hrule with rfl | hlater
    · rw [matchingRules, he, fitsCall_error he]
      rfl
    have hrest := ih hlater
    cases value with
    | dict first =>
      rw [matchingRules, hrest]
      cases hfirst : fitsCall fmt zones call time configTz first with
      | error => rw [fitsCall_error hfirst]; rfl
      | ok => rfl
    | _ => exact hrest

lemma comparable_or {call : Dict String (PyJson F)} {time : DateTime} {configTz : String}
    (rules : List (PyJson F)) : Comparable fmt zones call time configTz rules
      ∨ ∃ rule, .dict rule ∈ rules ∧ ∃ e, fitsCall fmt zones call time configTz rule = .error e := by
  by_cases h : Comparable fmt zones call time configTz rules
  · exact .inl h
  unfold Comparable at h
  simp only [not_forall] at h
  obtain ⟨rule, hrule, hfits⟩ := h
  exact .inr ⟨rule, hrule, (returns_or_error _).resolve_left hfits⟩

/-! ## The largest key -/

lemma argmax_perm {α β : Type} [LinearOrder β] {f : α → β} {l l' : List α} (h : l.Perm l')
    (hinj : ∀ a ∈ l, ∀ b ∈ l, f a = f b → a = b) : l.argmax f = l'.argmax f := by
  cases hm : l.argmax f with
  | none =>
    rw [argmax_eq_none.1 hm] at h
    rw [← h.nil_eq, argmax_nil]
  | some m =>
    have hmem := argmax_mem hm
    cases hm' : l'.argmax f with
    | none =>
      rw [argmax_eq_none.1 hm'] at h
      exact absurd (h.mem_iff.1 hmem) not_mem_nil
    | some m' =>
      have hmem' := h.mem_iff.2 (argmax_mem hm')
      have hle := le_of_mem_argmax (h.mem_iff.1 hmem) hm'
      have hge := le_of_mem_argmax hmem' hm
      rw [hinj m hmem m' hmem' (le_antisymm hle hge)]

lemma sortKey_injective (h : (rules.map (ruleId fmt)).Nodup) {a b : Dict String (PyJson F)}
    (ha : .dict a ∈ rules) (hb : .dict b ∈ rules)
    (hkey : effectiveSortKey fmt zones configTz a = effectiveSortKey fmt zones configTz b) : a = b := by
  have hid : ruleId fmt (.dict a) = ruleId fmt (.dict b) := by
    have hpair := (Prod.mk.inj (toLex.injective hkey)).2
    exact (Prod.mk.inj (toLex.injective hpair)).2
  exact PyJson.dict.inj (inj_on_of_nodup_map h ha hb hid)

variable {config : Config F} {call : Dict String (PyJson F)} {time : DateTime}

lemma selected_eq (h : Comparable fmt zones call time (tableTz zones config) config.rules) :
    selected fmt zones config call time
      = .ok ((config.rules.filterMap (fitting fmt zones call time (tableTz zones config))).argmax
        (effectiveSortKey fmt zones (tableTz zones config))) := by
  unfold selected selectRule
  rw [matchingRules_ok h]
  rfl

lemma selected_error {rule : Dict String (PyJson F)} (hrule : .dict rule ∈ config.rules)
    (hraises : Raises fmt zones config call time rule) :
    selected fmt zones config call time = .error .overflowError := by
  obtain ⟨_, he⟩ := hraises
  unfold selected selectRule
  rw [matchingRules_error hrule he]
  rfl

lemma selected_perm (hids : (config.rules.map (ruleId fmt)).Nodup)
    (hperm : rules.Perm config.rules) : selected fmt zones { config with rules :=rules } call time
      = selected fmt zones config call time := by
  rcases @comparable_or _ fmt zones call time (tableTz zones config) config.rules with h | ⟨rule, hrule, e, he⟩
  · have h' : Comparable fmt zones call time (tableTz zones config) rules :=
      fun rule hrule => h rule (hperm.mem_iff.1 hrule)
    rw [selected_eq h, @selected_eq _ fmt zones { config with rules := rules } call time h']
    congr 1
    apply argmax_perm (hperm.filterMap _)
    intro _ ha _ hb hkey
    exact sortKey_injective hids (hperm.mem_iff.1 (mem_fitting.1 ha).1)
      (hperm.mem_iff.1 (mem_fitting.1 hb).1) hkey
  rw [selected_error hrule ⟨e, he⟩]
  exact @selected_error _ fmt zones { config with rules := rules } call time rule
    (hperm.mem_iff.2 hrule) ⟨e, he⟩

/-- **When the selected rule is in force.** -/
theorem select_lawful_iff {raw : PyJson F}
    (hvalid : validatePricingConfig fmt zones raw = .ok (config, [])) :
    SelectsInForce fmt zones config call time ↔ StaleOutranked fmt zones config call time := by
  have hids := validate_ids hvalid
  constructor
  · intro h rule hrule hfits hstale
    rcases @comparable_or _ fmt zones call time (tableTz zones config) config.rules with
      hall | ⟨other, hother, hraises⟩
    · -- the selected rule is another one, with a larger key
      have hmem := mem_fitting.2 ⟨hrule, hfits⟩
      cases hbest : (config.rules.filterMap (fitting fmt zones call time (tableTz zones config))).argmax
          (effectiveSortKey fmt zones (tableTz zones config)) with
      | none =>
        rw [argmax_eq_none.1 hbest] at hmem
        cases hmem
      | some best =>
        have hforce := h.1 best ((selected_eq hall).trans (congrArg Except.ok hbest))
        obtain ⟨hbestMem, hbestFits⟩ := mem_fitting.1 (argmax_mem hbest)
        have hle := le_of_mem_argmax hmem hbest
        have hne : effectiveSortKey fmt zones (tableTz zones config) rule
            ≠ effectiveSortKey fmt zones (tableTz zones config) best := by
          intro hkey
          rw [sortKey_injective hids hrule hbestMem hkey] at hstale
          exact hstale hforce
        exact .inl ⟨best, hbestMem, hbestFits, lt_of_le_of_ne hle hne⟩
    exact .inr ⟨other, hother, hraises⟩
  intro h
  refine ⟨fun rule hrule => ?_, fun rules hperm => selected_perm hids hperm⟩
  by_contra hstale
  rcases @comparable_or _ fmt zones call time (tableTz zones config) config.rules with
    hall | ⟨other, hother, hraises⟩
  · have hbest := ok.inj ((selected_eq hall).symm.trans hrule)
    obtain ⟨hmem, hfits⟩ := mem_fitting.1 (argmax_mem hbest)
    rcases h rule hmem hfits hstale with ⟨other, hother, hotherFits, hlt⟩ | ⟨other, hother, e, he⟩
    · -- nothing outranks the selected rule
      exact absurd (le_of_mem_argmax (mem_fitting.2 ⟨hother, hotherFits⟩) hbest) (not_le.2 hlt)
    obtain ⟨_, hb⟩ := hall other hother
    cases hb.symm.trans he
  rw [selected_error hother hraises] at hrule
  cases hrule

end

/-! ## A rule that is selected after its end -/

def shanghaiTable : PyJson Empty :=
  .dict [("version", .str "1"), ("rules", .list [.dict [("id", .str "promo"), ("provider", .str "*"),
    ("model", .str "*"), ("timezone", .str "Asia/Shanghai"),
    ("effective_to", .str "2026-01-01T00:00:00"),
    ("rates", .dict [("prompt", .str "1"), ("completion", .str "2")])]])]

def newYearsEve : DateTime where
  wall := (739615 * 24 + 20) * 3600 * 1000000
  tz := .fixed 0

def someCall : Dict String (PyJson Empty) := [("provider", .str "acme"), ("model", .str "large")]

lemma shanghaiTable_selects :
    (validatePricingConfig plainFormat twoZones shanghaiTable).map (fun found =>
      (found.2, (selected plainFormat twoZones found.1 someCall newYearsEve).map
        (Option.map (fun rule => decide (InForce twoZones found.1 rule newYearsEve)))))
      = .ok ([], .ok (some false)) := by decide +kernel

/-- **The window is read in two zones**: the rule ended four hours before the
call. -/
theorem shanghai_outlived :
    parseDatetime "UTC" (.str "2025-12-31T20:00:00Z" : PyJson Empty) = some newYearsEve
      ∧ ∃ config, validatePricingConfig plainFormat twoZones shanghaiTable = .ok (config, [])
        ∧ ¬ SelectsInForce plainFormat twoZones config someCall newYearsEve := by
  obtain ⟨⟨config, errors⟩, hvalid, hfound⟩ := map_eq_ok_iff.1 shanghaiTable_selects
  obtain ⟨herrors, hselected⟩ := Prod.mk.inj hfound
  obtain rfl : errors = [] := herrors
  refine ⟨by decide +kernel, config, hvalid, fun h => ?_⟩
  obtain ⟨_, hrule, hmap⟩ := map_eq_ok_iff.1 hselected
  obtain ⟨rule, rfl, hforce⟩ := map_eq_some_iff.1 hmap
  exact of_decide_eq_false hforce (h.1 rule hrule)

/-- The condition fails for this table. -/
theorem shanghai_not_outranked :
    ∃ config, validatePricingConfig plainFormat twoZones shanghaiTable = .ok (config, [])
      ∧ (SelectsInForce plainFormat twoZones config someCall newYearsEve
        ↔ StaleOutranked plainFormat twoZones config someCall newYearsEve) := by
  obtain ⟨⟨config, errors⟩, hvalid, hfound⟩ := map_eq_ok_iff.1 shanghaiTable_selects
  obtain rfl : errors = [] := (Prod.mk.inj hfound).1
  exact ⟨config, hvalid, select_lawful_iff hvalid⟩

end DeterminFlow.Pricing
