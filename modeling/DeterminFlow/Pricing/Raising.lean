/-
  Pricing.Raising
  **WHEN PRICING RAISES.**

  Three operations of the pricing functions can raise outside every handler: a
  date shifted out of the years 1 to 9999, a decimal past the largest exponent,
  and iterating over a value that is no collection.
-/
import DeterminFlow.Pricing.EffectiveWindows

namespace DeterminFlow.Pricing

open Library Outcome List Option Arithmetic Decimal Except

/-! ## Decimals -/

section
variable {ctx : Decimal.Context} {q : Rat}

lemma round_ok (h0 : 0 ≤ q) (h : q < ctx.limit) : (ofContext ctx).round q = .ok (ctx.rounded q) :=
  contextRound_eq_ok_iff.2 (Context.round_eq h0 h)

lemma round_returns (h0 : 0 ≤ q) : Returns ((ofContext ctx).round q) ↔ q < ctx.limit := by
  constructor
  · intro h
    obtain ⟨_, hr⟩ := h
    have hsome : (ctx.round q).isSome := by
      rw [contextRound_eq_ok_iff.1 hr]
      rfl
    exact abs_of_nonneg h0 ▸ (Context.round_isSome_iff q).1 hsome
  intro h
  exact ⟨_, round_ok h0 h⟩

/-- One part of a charge stays below the overflow limit. -/
structure PartFits (ctx : Decimal.Context) (units : Nat) (rate : Option Rat) (unit : Nat)
    (multiplier : Rat) : Prop where
  product : units * rate.getD 0 < ctx.limit
  scaled : ctx.rounded (ctx.rounded (units * rate.getD 0) / unit) * multiplier < ctx.limit

def partValue (ctx : Decimal.Context) (units : Nat) (rate : Option Rat) (unit : Nat)
    (multiplier : Rat) : Rat :=
  ctx.rounded (ctx.rounded (ctx.rounded (units * rate.getD 0) / unit) * multiplier)

variable {units unit : Nat} {rate : Option Rat} {multiplier : Rat}

lemma product_nonneg (hrate : NonnegRate rate) : (0 : Rat) ≤ units * rate.getD 0 :=
  mul_nonneg (Nat.cast_nonneg _) (getD_nonneg hrate)

lemma share_nonneg (hrate : NonnegRate rate) : 0 ≤ ctx.rounded (units * rate.getD 0) / unit :=
  div_nonneg (Context.rounded_nonneg (product_nonneg hrate)) (Nat.cast_nonneg _)

lemma scaled_nonneg (hrate : NonnegRate rate) (hm : 0 ≤ multiplier) :
    0 ≤ ctx.rounded (ctx.rounded (units * rate.getD 0) / unit) * multiplier :=
  mul_nonneg (Context.rounded_nonneg (share_nonneg hrate)) hm

lemma partValue_nonneg (hrate : NonnegRate rate) (hm : 0 ≤ multiplier) :
    0 ≤ partValue ctx units rate unit multiplier :=
  Context.rounded_nonneg (scaled_nonneg hrate hm)

lemma share_lt (hrate : NonnegRate rate) (h : units * rate.getD 0 < ctx.limit) :
    ctx.rounded (units * rate.getD 0) / unit < ctx.limit := by
  have hkept := Context.rounded_lt_limit (product_nonneg hrate) h
  have h0 : 0 ≤ ctx.rounded (units * rate.getD 0) :=
    Context.rounded_nonneg (product_nonneg hrate)
  rcases Nat.eq_zero_or_pos unit with rfl | hpos
  · rw [Nat.cast_zero, div_zero]
    exact Context.limit_pos
  have hone : (1 : Rat) ≤ unit := by exact_mod_cast hpos
  exact (div_le_self h0 hone).trans_lt hkept

lemma partAmount_ok (hrate : NonnegRate rate) (hm : 0 ≤ multiplier)
    (h : PartFits ctx units rate unit multiplier) :
    partAmount (.ofContext ctx) units rate unit multiplier
      = .ok (partValue ctx units rate unit multiplier) := by
  unfold partAmount
  rw [round_ok (product_nonneg hrate) h.product]
  show (ofContext ctx).round _ >>= _ = _
  rw [round_ok (share_nonneg hrate) (share_lt hrate h.product)]
  show (ofContext ctx).round _ = _
  rw [round_ok (scaled_nonneg hrate hm) h.scaled]
  rfl

lemma partAmount_returns (hrate : NonnegRate rate) (hm : 0 ≤ multiplier) :
    Returns (partAmount (.ofContext ctx) units rate unit multiplier)
      ↔ PartFits ctx units rate unit multiplier := by
  constructor
  · intro h
    obtain ⟨_, hproduct, h⟩ := returns_bind_iff.1 h
    have hfits := (round_returns (product_nonneg hrate)).1 ⟨_, hproduct⟩
    obtain rfl := ok.inj ((round_ok (product_nonneg hrate) hfits).symm.trans hproduct)
    obtain ⟨_, hshare, h⟩ := returns_bind_iff.1 h
    obtain rfl := ok.inj
      ((round_ok (share_nonneg hrate) (share_lt hrate hfits)).symm.trans hshare)
    exact ⟨hfits, (round_returns (scaled_nonneg hrate hm)).1 h⟩
  intro h
  exact ⟨_, partAmount_ok hrate hm h⟩

lemma decimalString_kept {arith : Arithmetic} {r : Rat} (h : arith.round q = .ok r) :
    Returns (decimalString arith r) := by
  unfold decimalString
  split
  · exact returns_ok _
  exact arith.again h

lemma decimalString_returns_iff (h0 : 0 ≤ q) :
    Returns (decimalString (.ofContext ctx) q) ↔ q < ctx.limit := by
  unfold decimalString
  split
  · next hzero =>
    rw [hzero]
    exact iff_of_true (returns_ok _) Context.limit_pos
  exact round_returns h0

/-- The four parts of a charge and their sums stay below the overflow limit. -/
structure ChargeFits (ctx : Decimal.Context) (parts : Parts) (rates : Rates) (unit : Nat)
    (multiplier : Rat) : Prop where
  prompt : PartFits ctx parts.prompt rates.prompt unit multiplier
  cached : PartFits ctx parts.cached rates.cached unit multiplier
  completion : PartFits ctx parts.completion rates.completion unit multiplier
  reasoning : PartFits ctx parts.reasoning rates.reasoning unit multiplier
  both : partValue ctx parts.prompt rates.prompt unit multiplier
    + partValue ctx parts.cached rates.cached unit multiplier < ctx.limit
  three : ctx.rounded (partValue ctx parts.prompt rates.prompt unit multiplier
      + partValue ctx parts.cached rates.cached unit multiplier)
    + partValue ctx parts.completion rates.completion unit multiplier < ctx.limit
  amount : ctx.rounded (ctx.rounded (partValue ctx parts.prompt rates.prompt unit multiplier
        + partValue ctx parts.cached rates.cached unit multiplier)
      + partValue ctx parts.completion rates.completion unit multiplier)
    + partValue ctx parts.reasoning rates.reasoning unit multiplier < ctx.limit

lemma add_round {p : Rat} (hp : 0 ≤ p) (hq : 0 ≤ q) :
    Returns ((ofContext ctx).round (p + q)) ↔ p + q < ctx.limit :=
  round_returns (add_nonneg hp hq)

lemma charge_returns {parts : Parts} {rates : Rates}
    (hprompt : NonnegRate rates.prompt) (hcached : NonnegRate rates.cached)
    (hcompletion : NonnegRate rates.completion) (hreasoning : NonnegRate rates.reasoning)
    (hm : 0 ≤ multiplier) : Returns (charge (.ofContext ctx) parts rates unit multiplier)
      ↔ ChargeFits ctx parts rates unit multiplier := by
  have hp := @partValue_nonneg ctx parts.prompt unit _ _ hprompt hm
  have hc := @partValue_nonneg ctx parts.cached unit _ _ hcached hm
  have ho := @partValue_nonneg ctx parts.completion unit _ _ hcompletion hm
  have hr := @partValue_nonneg ctx parts.reasoning unit _ _ hreasoning hm
  have hboth := @Decimal.Context.rounded_nonneg ctx _ (add_nonneg hp hc)
  have hthree := @Decimal.Context.rounded_nonneg ctx _ (add_nonneg hboth ho)
  constructor
  · intro h
    obtain ⟨prompt, hprompt', h⟩ := returns_bind_iff.1 h
    have fprompt := (partAmount_returns hprompt hm).1 ⟨_, hprompt'⟩
    obtain rfl := ok.inj ((partAmount_ok hprompt hm fprompt).symm.trans hprompt')
    obtain ⟨cached, hcached', h⟩ := returns_bind_iff.1 h
    have fcached := (partAmount_returns hcached hm).1 ⟨_, hcached'⟩
    obtain rfl := ok.inj ((partAmount_ok hcached hm fcached).symm.trans hcached')
    obtain ⟨completion, hcompletion', h⟩ := returns_bind_iff.1 h
    have fcompletion := (partAmount_returns hcompletion hm).1 ⟨_, hcompletion'⟩
    obtain rfl := ok.inj ((partAmount_ok hcompletion hm fcompletion).symm.trans hcompletion')
    obtain ⟨reasoning, hreasoning', h⟩ := returns_bind_iff.1 h
    have freasoning := (partAmount_returns hreasoning hm).1 ⟨_, hreasoning'⟩
    obtain rfl := ok.inj ((partAmount_ok hreasoning hm freasoning).symm.trans hreasoning')
    obtain ⟨both, hboth', h⟩ := returns_bind_iff.1 h
    have fboth := (add_round hp hc).1 ⟨_, hboth'⟩
    obtain rfl := ok.inj ((round_ok (add_nonneg hp hc) fboth).symm.trans hboth')
    obtain ⟨three, hthree', h⟩ := returns_bind_iff.1 h
    have fthree := (add_round hboth ho).1 ⟨_, hthree'⟩
    obtain rfl := ok.inj ((round_ok (add_nonneg hboth ho) fthree).symm.trans hthree')
    obtain ⟨amount, hamount', -⟩ := returns_bind_iff.1 h
    exact ⟨fprompt, fcached, fcompletion, freasoning, fboth, fthree,
      (add_round hthree hr).1 ⟨_, hamount'⟩⟩
  intro h
  have eprompt := partAmount_ok hprompt hm h.prompt
  have ecached := partAmount_ok hcached hm h.cached
  have ecompletion := partAmount_ok hcompletion hm h.completion
  have ereasoning := partAmount_ok hreasoning hm h.reasoning
  have eamount := round_ok (add_nonneg hthree hr) h.amount
  -- every part is a kept result, and so is the sum
  have kept : ∀ {units : Nat} {rate : Option Rat}, NonnegRate rate →
      PartFits ctx units rate unit multiplier →
      Returns (decimalString (.ofContext ctx) (partValue ctx units rate unit multiplier)) :=
    fun hrate hfits => decimalString_kept (round_ok (scaled_nonneg hrate hm) hfits.scaled)
  obtain ⟨a, ha⟩ := decimalString_kept eamount
  obtain ⟨p, hp'⟩ := kept hprompt h.prompt
  obtain ⟨c, hc'⟩ := kept hcached h.cached
  obtain ⟨o, ho'⟩ := kept hcompletion h.completion
  obtain ⟨r, hr'⟩ := kept hreasoning h.reasoning
  refine ⟨.priced a p c o r, bind_eq_ok_iff.2 ⟨_, eprompt, bind_eq_ok_iff.2 ⟨_, ecached,
    bind_eq_ok_iff.2 ⟨_, ecompletion, bind_eq_ok_iff.2 ⟨_, ereasoning, bind_eq_ok_iff.2
      ⟨_, round_ok (add_nonneg hp hc) h.both, bind_eq_ok_iff.2
        ⟨_, round_ok (add_nonneg hboth ho) h.three, bind_eq_ok_iff.2 ⟨_, eamount, ?_⟩⟩⟩⟩⟩⟩⟩⟩
  exact bind_eq_ok_iff.2 ⟨a, ha, bind_eq_ok_iff.2 ⟨p, hp', bind_eq_ok_iff.2 ⟨c, hc',
    bind_eq_ok_iff.2 ⟨o, ho', bind_eq_ok_iff.2 ⟨r, hr', rfl⟩⟩⟩⟩⟩

end

/-! ## Dates -/

section
variable {F : Type} {fmt : PyFormat F} {zones : Zones}

lemma checkRange_ok_iff {micros found : Int} :
    DateTime.checkRange micros = .ok found ↔ DateTime.InRange micros ∧ found = micros := by
  unfold DateTime.checkRange
  split
  · next h => exact ⟨fun heq => ⟨h, (ok.inj heq).symm⟩, fun heq => congrArg Except.ok heq.2.symm⟩
  · next h => exact ⟨fun heq => (by cases heq), fun heq => absurd heq.1 h⟩

/-- The instants that comparing a window looks at can be held: the time, the
start, and for a window that has begun, the end. -/
structure WindowInRange (zones : Zones) (tz : String) (rule : Dict String (PyJson F))
    (time : DateTime) : Prop where
  now : DateTime.InRange (time.instant zones)
  first : ∀ effectiveFrom ∈ windowEnd tz "effective_from" rule,
    DateTime.InRange (effectiveFrom.instant zones)
  last : (∀ effectiveFrom ∈ windowEnd tz "effective_from" rule,
      effectiveFrom.instant zones ≤ time.instant zones) →
    ∀ effectiveTo ∈ windowEnd tz "effective_to" rule, DateTime.InRange (effectiveTo.instant zones)

variable {tz : String} {rule call : Dict String (PyJson F)} {time : DateTime} {config : Config F}
  {base : Snapshot} {arith : Arithmetic}

lemma windowEndUtc_ok_iff {field : String} {found : Option Int} :
    windowEndUtc zones tz field rule = .ok found
      ↔ (∀ dt ∈ windowEnd tz field rule, DateTime.InRange (dt.instant zones))
        ∧ found = (windowEnd tz field rule).map (DateTime.instant zones) := by
  unfold windowEndUtc
  cases windowEnd tz field rule with
  | none =>
    constructor
    · intro h
      exact ⟨fun dt hdt => (by cases hdt), (ok.inj h).symm⟩
    intro h
    exact congrArg Except.ok h.2.symm
  | some dt =>
    show (dt.toUtc zones >>= fun utc => pure (some utc)) = _ ↔ _
    rw [bind_eq_ok_iff]
    constructor
    · intro h
      obtain ⟨utc, hutc, h⟩ := h
      obtain ⟨hrange, rfl⟩ := checkRange_ok_iff.1 hutc
      refine ⟨fun _ hdt' => ?_, (pure_eq_ok_iff.1 h).symm⟩
      obtain rfl := some.inj hdt'
      exact hrange
    intro h
    exact ⟨_, checkRange_ok_iff.2 ⟨h.1 dt rfl, rfl⟩, congrArg Except.ok h.2.symm⟩

lemma early_iff {occurred : Int} :
    ((windowEnd tz "effective_from" rule).map (DateTime.instant zones)).any (occurred < ·) = false
      ↔ ∀ effectiveFrom ∈ windowEnd tz "effective_from" rule, effectiveFrom.instant zones ≤ occurred := by
  cases windowEnd tz "effective_from" rule with
  | none => exact iff_of_true rfl (fun dt hdt => by cases hdt)
  | some dt =>
    show decide (occurred < dt.instant zones) = false ↔ _
    rw [decide_eq_false_iff_not, not_lt]
    constructor
    · intro h _ hdt'
      obtain rfl := some.inj hdt'
      exact h
    exact fun h => h dt rfl

lemma window_returns :
    Returns (matchesEffectiveWindow zones rule time tz) ↔ WindowInRange zones tz rule time := by
  constructor
  · intro h
    obtain ⟨_, htime, h⟩ := returns_bind_iff.1 h
    obtain ⟨hrange, rfl⟩ := checkRange_ok_iff.1 htime
    obtain ⟨first, hstart, h⟩ := returns_bind_iff.1 h
    obtain ⟨hfirst, rfl⟩ := windowEndUtc_ok_iff.1 hstart
    refine ⟨hrange, hfirst, fun hbegun => ?_⟩
    rw [early_iff.2 hbegun, if_neg Bool.false_ne_true] at h
    obtain ⟨last, hlast, -⟩ := returns_bind_iff.1 h
    exact (windowEndUtc_ok_iff.1 hlast).1
  intro h
  refine returns_bind_iff.2 ⟨_, checkRange_ok_iff.2 ⟨h.now, rfl⟩,
    returns_bind_iff.2 ⟨_, windowEndUtc_ok_iff.2 ⟨h.first, rfl⟩, ?_⟩⟩
  split
  · exact returns_pure _
  next hbegun =>
  rw [Bool.not_eq_true, early_iff] at hbegun
  exact returns_bind_iff.2 ⟨_, windowEndUtc_ok_iff.2 ⟨h.last hbegun, rfl⟩, returns_pure _⟩

lemma fitsCall_returns : Returns (fitsCall fmt zones call time tz rule)
      ↔ (matchesIdentity fmt rule call = true → WindowInRange zones tz rule time) := by
  unfold fitsCall
  split
  · next h => exact window_returns.trans ⟨fun hrange _ => hrange, fun hrange => hrange h⟩
  · next h => exact iff_of_true (returns_ok _) (fun hmatch => absurd hmatch h)

lemma selectRule_returns {rules : List (PyJson F)} :
    Returns (selectRule fmt zones rules call time tz)
      ↔ ∀ rule, .dict rule ∈ rules → matchesIdentity fmt rule call = true →
        WindowInRange zones tz rule time := by
  constructor
  · intro h rule hrule
    obtain ⟨_, hfound, -⟩ := returns_bind_iff.1 h
    rcases returns_or_error (fitsCall fmt zones call time tz rule) with hreturns | ⟨e, he⟩
    · exact fitsCall_returns.1 hreturns
    rw [matchingRules_error hrule he] at hfound
    cases hfound
  intro h
  have hall : Comparable fmt zones call time tz rules :=
    fun rule hrule => fitsCall_returns.2 (h rule hrule)
  exact returns_bind_iff.2 ⟨_, matchingRules_ok hall, returns_pure _⟩

/-- What the clocks of the zone show, whether or not a `datetime` can hold it. -/
def localWall (zones : Zones) (time : DateTime) (key : String) : Int :=
  if time.tz = .zone key then time.wall
  else time.instant zones + zones.fromUtc key (time.instant zones)

def LocalInRange (zones : Zones) (time : DateTime) (key : String) : Prop :=
  time.tz = .zone key
    ∨ (DateTime.InRange (time.instant zones) ∧ DateTime.InRange (localWall zones time key))

lemma localTime_ok_iff {key : String} {wall : Int} : time.localTime zones key = .ok wall
      ↔ LocalInRange zones time key ∧ wall = localWall zones time key := by
  unfold DateTime.localTime LocalInRange localWall
  by_cases hzone : time.tz = .zone key
  · rw [if_pos hzone, if_pos hzone]
    exact ⟨fun h => ⟨.inl hzone, (ok.inj h).symm⟩, fun h => congrArg Except.ok h.2.symm⟩
  rw [if_neg hzone, if_neg hzone, bind_eq_ok_iff]
  constructor
  · intro h
    obtain ⟨_, hutc, h⟩ := h
    obtain ⟨hrange, rfl⟩ := checkRange_ok_iff.1 hutc
    obtain ⟨hlocal, rfl⟩ := checkRange_ok_iff.1 h
    exact ⟨.inr ⟨hrange, hlocal⟩, rfl⟩
  intro h
  obtain ⟨hrange, hlocal⟩ := h.1.resolve_left hzone
  exact ⟨_, checkRange_ok_iff.2 ⟨hrange, rfl⟩, checkRange_ok_iff.2 ⟨hlocal, h.2⟩⟩

/-! ## Calls -/

variable {ctx : Decimal.Context}

def callMultiplier (fmt : PyFormat F) (zones : Zones) (rule : Dict String (PyJson F))
    (time : DateTime) (tz : String) : Rat :=
  (selectTimeBand fmt rule (localWall zones time tz)).2

/-- Charging the call by the rule leaves neither the years nor the exponents. -/
structure RuleInRange (ctx : Decimal.Context) (fmt : PyFormat F) (zones : Zones) (config : Config F)
    (rule : Dict String (PyJson F)) (time : DateTime) (tokens : Tokens) (tz : String) : Prop where
  shifted : LocalInRange zones time tz
  multiplier : callMultiplier fmt zones rule time tz < ctx.limit
  charge : missingRates tokens (ratesOf fmt (ratesDict rule)) = [] →
    ChargeFits ctx (partsOf tokens (ratesOf fmt (ratesDict rule))) (ratesOf fmt (ratesDict rule))
      config.unitTokens (callMultiplier fmt zones rule time tz)

lemma chargeCall_returns {tokens : Tokens} :
    Returns (chargeCall fmt zones (.ofContext ctx) config base call rule time tokens)
      ↔ ∀ tz, zoneinfo zones (.str (ruleTzName fmt rule base) : PyJson F) = some tz →
        RuleInRange ctx fmt zones config rule time tokens tz := by
  have hm : ∀ wall, 0 ≤ (selectTimeBand fmt rule wall).2 := multiplier_nonneg rule
  have hcharge := fun (unit : Nat) (wall : Int) => @charge_returns ctx unit _
    (partsOf tokens (ratesOf fmt (ratesDict rule))) (ratesOf fmt (ratesDict rule))
    (rate_nonneg _ _) (rate_nonneg _ _) (rate_nonneg _ _) (rate_nonneg _ _) (hm wall)
  unfold chargeCall
  split
  · next hnone => exact iff_of_true (returns_ok _) (fun tz htz => by rw [hnone] at htz; cases htz)
  next tz hsome =>
  constructor
  · intro h _ htz'
    obtain rfl := some.inj (hsome.symm.trans htz')
    obtain ⟨wall, hwall, h⟩ := returns_bind_iff.1 h
    obtain ⟨hlocal, rfl⟩ := localTime_ok_iff.1 hwall
    obtain ⟨shown, hshown, h⟩ := returns_bind_iff.1 h
    refine ⟨hlocal, (decimalString_returns_iff (hm _)).1 ⟨_, hshown⟩, fun hrated => ?_⟩
    rw [if_neg (not_not.2 hrated)] at h
    obtain ⟨cost, hcost, -⟩ := returns_bind_iff.1 h
    exact (hcharge _ _).1 ⟨_, hcost⟩
  intro h
  obtain ⟨hlocal, hmultiplier, hfits⟩ := h tz hsome
  obtain ⟨shown, hshown⟩ := (decimalString_returns_iff (hm _)).2 hmultiplier
  refine returns_bind_iff.2 ⟨_, localTime_ok_iff.2 ⟨hlocal, rfl⟩,
    returns_bind_iff.2 ⟨_, hshown, ?_⟩⟩
  by_cases hrated : missingRates tokens (ratesOf fmt (ratesDict rule)) = []
  · rw [if_neg (not_not.2 hrated)]
    obtain ⟨cost, hcost⟩ := (hcharge _ _).2 (hfits hrated)
    exact returns_bind_iff.2 ⟨_, hcost, returns_pure _⟩
  rw [if_pos hrated]
  exact returns_pure _

def Usable (fmt : PyFormat F) (call : Dict String (PyJson F)) : Prop :=
  isComplete (PyJson.getD call "usage_status" .null) = true ∨ legacyInferred fmt call = true

/-- Pricing the call leaves neither the years nor the exponents: the windows of
all rules for its model can be compared with its time, and the selected one can
charge it. -/
structure CallInRange (ctx : Decimal.Context) (fmt : PyFormat F) (zones : Zones) (config : Config F)
    (base : Snapshot) (call : Dict String (PyJson F)) (time : DateTime) : Prop where
  windows : ∀ rule, .dict rule ∈ config.rules → matchesIdentity fmt rule call = true →
    WindowInRange zones (tableTz zones config) rule time
  charge : ∀ rule tokens tz, selected fmt zones config call time = .ok (some rule) →
    readTokens fmt call = some tokens → inconsistentFields tokens = [] →
    zoneinfo zones (.str (ruleTzName fmt rule base) : PyJson F) = some tz →
    RuleInRange ctx fmt zones config rule time tokens tz

def InUse (zones : Zones) (config : Config F) (base : Snapshot) : Prop :=
  zoneinfo zones (.str base.timezone : PyJson F) = some (tableTz zones config)

lemma priceCall_returns (huse : InUse zones config base) :
    Returns (priceCall fmt zones (.ofContext ctx) config base call)
      ↔ (Usable fmt call → ∀ time,
        parseDatetime (tableTz zones config) (PyJson.getD call "timestamp" .null) = some time →
          CallInRange ctx fmt zones config base call time) := by
  unfold priceCall
  split
  · next hincomplete =>
    refine iff_of_true (returns_ok _) (fun husable => ?_)
    rcases husable with h | h
    · rw [h] at hincomplete
      cases hincomplete.1
    rw [h] at hincomplete
    cases hincomplete.2
  next hcomplete =>
  have husable : Usable fmt call := by
    by_contra hnot
    obtain ⟨hstatus, hlegacy⟩ := not_or.1 hnot
    exact hcomplete ⟨Bool.not_eq_true _ ▸ hstatus, Bool.not_eq_true _ ▸ hlegacy⟩
  rw [huse]
  simp only
  split
  · next hnone =>
    exact iff_of_true (returns_ok _) (fun _ time htime => by rw [hnone] at htime; cases htime)
  next time htime =>
  constructor
  · intro h _ _ htime'
    obtain rfl := some.inj (htime.symm.trans htime')
    obtain ⟨found, hfound, h⟩ := returns_bind_iff.1 h
    refine ⟨selectRule_returns.1 ⟨_, hfound⟩, fun rule tokens tz hrule htokens hconsistent htz => ?_⟩
    obtain rfl := ok.inj (hfound.symm.trans hrule)
    simp only [htokens, hconsistent] at h
    exact chargeCall_returns.1 h tz htz
  intro h
  have hin := h husable time htime
  obtain ⟨found, hfound⟩ := selectRule_returns.2 hin.windows
  refine returns_bind_iff.2 ⟨found, hfound, ?_⟩
  cases found with
  | none => exact returns_pure _
  | some rule =>
    simp only
    split
    · exact returns_pure _
    next tokens htokens =>
    split
    · exact returns_pure _
    next hconsistent =>
    exact chargeCall_returns.2
      (fun tz htz => hin.charge rule tokens tz hfound htokens (not_not.1 hconsistent) htz)

/-! ## Tables and collections -/

lemma loaded_valid {source : Source F}
    (hload : loadPricingConfig fmt zones source = .ok (config, base))
    (hstatus : base.configStatus = .loaded) :
    (∃ raw, validatePricingConfig fmt zones raw = .ok (config, [])) ∧ InUse zones config base := by
  have htable : ∀ {name : String} {raw : PyJson F},
      loadTable fmt zones name raw = .ok (config, base) →
      (∃ raw, validatePricingConfig fmt zones raw = .ok (config, [])) ∧ InUse zones config base := by
    intro name raw h
    obtain ⟨⟨_, errors⟩, hvalid, h⟩ := bind_eq_ok_iff.1 h
    obtain ⟨rfl, rfl⟩ := Prod.mk.inj (pure_eq_ok_iff.1 h)
    have herrors : errors = [] := by
      by_contra hne
      simp only [if_neg hne, pricingSnapshot] at hstatus
      cases hstatus
    rw [herrors] at hvalid
    exact ⟨⟨raw, hvalid⟩, callTz_eq hvalid⟩
  cases source with
  | inline => exact htable hload
  | file => exact htable hload
  | _ =>
    obtain ⟨-, rfl⟩ := Prod.mk.inj (ok.inj hload)
    cases hstatus

lemma priceRows_returns {items : List (PyJson F)} :
    Returns (priceRows fmt zones arith config base items)
      ↔ ∀ item ∈ items, Returns (priceRow fmt zones arith config base (callOf item)) := by
  induction items with
  | nil => exact iff_of_true (returns_ok _) (nofun)
  | cons item items ih =>
    rw [forall_mem_cons, ← ih]
    constructor
    · intro h
      obtain ⟨row, hrow, h⟩ := returns_bind_iff.1 h
      obtain ⟨rows, hrows, -⟩ := returns_bind_iff.1 h
      exact ⟨⟨row, hrow⟩, ⟨rows, hrows⟩⟩
    intro h
    obtain ⟨⟨row, hrow⟩, ⟨rows, hrows⟩⟩ := h
    exact returns_bind_iff.2 ⟨row, hrow, returns_bind_iff.2 ⟨rows, hrows, returns_pure _⟩⟩

def Reported (fmt : PyFormat F) (arith : Arithmetic) (config : Config F)
    (call : Dict String (PyJson F)) (cost : Cost) : Prop :=
  IsUnpriced cost ∨ ∃ rule tokens wall, Chargeable fmt arith config call rule tokens wall cost

lemma priceRows_reported {items : List (PyJson F)} {rows : List (Row F × Option (RuleSnapshot F))}
    (h : priceRows fmt zones arith config base items = .ok rows) :
    List.Forall₂ (fun item row => Reported fmt arith config (callOf item) row.cost) items
      (rows.map (·.1)) := by
  induction items generalizing rows with
  | nil =>
    obtain rfl := ok.inj h
    exact .nil
  | cons item items ih =>
    obtain ⟨row, hrow, h⟩ := bind_eq_ok_iff.1 h
    obtain ⟨_, hlater, h⟩ := bind_eq_ok_iff.1 h
    obtain rfl := pure_eq_ok_iff.1 h
    refine .cons ?_ (ih hlater)
    unfold priceRow at hrow
    split at hrow
    · exact priceCall_cases hrow
    all_goals
      obtain rfl := ok.inj hrow
      exact .inl ⟨_, _, rfl⟩

/-- A result is returned, and a call that cannot be charged is reported in it as
unpriced. -/
def PricesAll (fmt : PyFormat F) (zones : Zones) (ruleKey : RuleSnapshot F → String)
    (source : Source F) (config : Config F) (calls : PyJson F) : Prop :=
  ∃ result items, priceUsageCalls fmt zones .standard ruleKey source calls = .ok result
    ∧ iterate calls = .ok items
    ∧ List.Forall₂ (fun item row => Reported fmt .standard config (callOf item) row.cost) items
      result.calls

/-- The calls are a collection, and no call that is usable and has a timestamp
leaves the years or the exponents. -/
def AllInRange (fmt : PyFormat F) (zones : Zones) (config : Config F) (base : Snapshot)
    (calls : PyJson F) : Prop :=
  ∃ items, iterate calls = .ok items ∧ ∀ item ∈ items, Usable fmt (callOf item) → ∀ time,
    parseDatetime (tableTz zones config) (PyJson.getD (callOf item) "timestamp" .null) = some time →
    CallInRange Decimal.Context.default fmt zones config base (callOf item) time

/-- **When a valid table prices all calls.** -/
theorem pricing_returns_iff {source : Source F} {config : Config F} {base : Snapshot}
    (hload : loadPricingConfig fmt zones source = .ok (config, base))
    (hstatus : base.configStatus = .loaded) (ruleKey : RuleSnapshot F → String) (calls : PyJson F) :
    PricesAll fmt zones ruleKey source config calls ↔ AllInRange fmt zones config base calls := by
  obtain ⟨-, huse⟩ := loaded_valid hload hstatus
  have hrow : ∀ call, priceRow fmt zones .standard config base call
      = priceCall fmt zones (.ofContext Context.default) config base call := by
    intro call
    unfold priceRow
    rw [hstatus]
    rfl
  constructor
  · intro h
    obtain ⟨_, items, hprice, hitems, -⟩ := h
    refine ⟨items, hitems, fun item hitem => ?_⟩
    obtain ⟨⟨_, _⟩, hload', h⟩ := bind_eq_ok_iff.1 hprice
    obtain ⟨rfl, rfl⟩ := Prod.mk.inj (ok.inj (hload.symm.trans hload'))
    obtain ⟨_, hitems', h⟩ := bind_eq_ok_iff.1 h
    obtain rfl := ok.inj (hitems.symm.trans hitems')
    obtain ⟨rows, hrows, -⟩ := bind_eq_ok_iff.1 h
    have hreturns := priceRows_returns.1 ⟨rows, hrows⟩ item hitem
    rw [hrow] at hreturns
    exact (priceCall_returns huse).1 hreturns
  intro h
  obtain ⟨items, hitems, hrange⟩ := h
  have hall : ∀ item ∈ items, Returns (priceRow fmt zones .standard config base (callOf item)) := by
    intro item hitem
    rw [hrow]
    exact (priceCall_returns huse).2 (hrange item hitem)
  obtain ⟨rows, hrows⟩ := priceRows_returns.2 hall
  exact ⟨_, items, bind_eq_ok_iff.2 ⟨_, hload, bind_eq_ok_iff.2 ⟨_, hitems,
    bind_eq_ok_iff.2 ⟨_, hrows, rfl⟩⟩⟩, hitems, priceRows_reported hrows⟩

end

/-! ## The first hours of the year 1 -/

def year1Call : PyJson Empty :=
  .dict [("usage_status", .str "complete"), ("timestamp", .str "0001-01-01T00:00:00+14:00"),
    ("prompt_tokens", .int 1), ("completion_tokens", .int 1), ("total_tokens", .int 2)]

lemma flatTable_loaded :
    (loadPricingConfig plainFormat twoZones (.inline flatTable)).map (fun found => found.2.configStatus)
      = .ok .loaded := by decide +kernel

lemma year1Call_error :
    (priceUsageCalls plainFormat twoZones .standard (·.ruleId) (.inline flatTable)
      (.list [cachedCall, year1Call])).map (fun result => result.calls.map (·.cost))
      = .error .overflowError := by decide +kernel

/-- **The time cannot be shifted to UTC**, and no call is priced. -/
theorem year1_raises :
    (loadPricingConfig plainFormat twoZones (.inline flatTable)).map (fun found => found.2.configStatus)
        = .ok .loaded
      ∧ ¬ Returns (priceUsageCalls plainFormat twoZones .standard (·.ruleId) (.inline flatTable)
        (.list [cachedCall, year1Call])) := by
  refine ⟨flatTable_loaded, fun h => ?_⟩
  obtain ⟨_, hresult⟩ := h
  have herror := year1Call_error
  rw [hresult] at herror
  cases herror

theorem year1_out_of_range :
    ∃ config base, loadPricingConfig plainFormat twoZones (.inline flatTable) = .ok (config, base)
      ∧ base.configStatus = .loaded
      ∧ (PricesAll plainFormat twoZones (·.ruleId) (.inline flatTable) config
          (.list [cachedCall, year1Call])
        ↔ AllInRange plainFormat twoZones config base (.list [cachedCall, year1Call])) := by
  obtain ⟨⟨config, base⟩, hload, hstatus⟩ := map_eq_ok_iff.1 flatTable_loaded
  exact ⟨config, base, hload, hstatus, pricing_returns_iff hload hstatus _ _⟩

end DeterminFlow.Pricing
