/-
  Pricing.Config
  **THE PRICING TABLE.**

  `_validate_pricing_config` reads a pricing table from any JSON value, and
  lists what is wrong with it under stable codes.  A table without errors is
  loaded; with errors, no call is priced.

  The zone database is a parameter, as the arithmetic of the calls is.
-/
import Mathlib.Data.List.Sort
import Mathlib.Data.String.Basic
import DeterminFlow.Library.Decimal
import DeterminFlow.Library.IsoTime
import DeterminFlow.Library.PyJson

namespace DeterminFlow.Pricing

open Library

/-! ## Values -/

/-- The exceptions that the pricing functions do not catch. -/
inductive PyError where
  /-- A date outside the years 1 to 9999. -/
  | overflowError
  /-- A decimal past the largest exponent. -/
  | decimalOverflow
  | typeError
  deriving DecidableEq

structure Zones where
  /-- `ZoneInfo(key)` finds the zone. -/
  known : String → Bool
  /-- The offset east of UTC while the clocks of a zone show a time. -/
  utcoffset : String → Int → Int
  /-- The offset at an instant. -/
  fromUtc : String → Int → Int

/-- A `tzinfo`. -/
inductive Tz where
  | fixed (offset : Int)
  | zone (key : String)
  deriving DecidableEq

/-- A `datetime` with a zone; `wall` is what the clock shows, in microseconds
since the first midnight of year 1. -/
structure DateTime where
  wall : Int
  tz : Tz
  deriving DecidableEq

namespace DateTime

def utcoffset (zones : Zones) (dt : DateTime) : Int :=
  match dt.tz with
  | .fixed offset => offset
  | .zone key => zones.utcoffset key dt.wall

/-- The instant, whether or not a `datetime` can hold it. -/
def instant (zones : Zones) (dt : DateTime) : Int := dt.wall - dt.utcoffset zones

/-- A `datetime` can hold it. -/
def InRange (micros : Int) : Prop := 0 ≤ micros ∧ micros < IsoTime.endOfTime

instance (micros : Int) : Decidable (InRange micros) := inferInstanceAs (Decidable (_ ∧ _))

/-- The result of shifting a `datetime`. -/
def checkRange (micros : Int) : Except PyError Int :=
  if InRange micros then .ok micros else .error .overflowError

/-- `astimezone(timezone.utc)` -/
def toUtc (zones : Zones) (dt : DateTime) : Except PyError Int := checkRange (dt.instant zones)

/-- `astimezone(zone)`: what the clocks of the zone show.  A time of the zone
itself is not converted. -/
def localTime (zones : Zones) (dt : DateTime) (key : String) : Except PyError Int :=
  if dt.tz = .zone key then .ok dt.wall
  else do
    let utc ← dt.toUtc zones
    checkRange (utc + zones.fromUtc key utc)

end DateTime

section
variable {F : Type} (fmt : PyFormat F) (zones : Zones)

/-- `Decimal(str(value))`, when it is finite. -/
def finiteDecimal? : PyJson F → Option Rat
  | .int i => some i
  | .float f => Decimal.parseFinite? (fmt.floatRepr f)
  | .str text => Decimal.parseFinite? text
  -- the texts of the other values write no number
  | .null | .bool _ | .list _ | .dict _ => none

def asDecimal (value : PyJson F) : Option Rat :=
  (finiteDecimal? fmt value).bind (fun r => if r < 0 then none else some r)

def asTokenInt (value : PyJson F) : Option Nat :=
  (finiteDecimal? fmt value).bind (fun r => if r < 0 ∨ r.den ≠ 1 then none else some r.num.toNat)

def zoneinfo : PyJson F → Option String
  | .str name =>
    let key := String.ofList (PyText.stripChars name)
    if PyText.hasText name ∧ zones.known key then some key else none
  | _ => none

/-- `raw.replace("Z", "+00:00")` -/
def replaceZ (chars : List Char) : List Char :=
  chars.flatMap (fun c => if c = 'Z' then "+00:00".toList else [c])

def parseDatetime (defaultTz : String) : PyJson F → Option DateTime
  | .str text =>
    if PyText.hasText text then
      (IsoTime.datetimeFromIso? (replaceZ (PyText.stripChars text))).map (fun found =>
        { wall := found.1, tz := (found.2.map Tz.fixed).getD (.zone defaultTz) })
    else none
  | _ => none

def parseClock : PyJson F → Option Nat
  | .str text =>
    if PyText.hasText text then
      match IsoTime.timeFromIso? (PyText.stripChars text) with
      | some (time, none) => some time
      | _ => none
    else none
  | _ => none

def dayAliases : Dict String Nat :=
  [("mon", 0), ("tue", 1), ("wed", 2), ("thu", 3), ("fri", 4), ("sat", 5), ("sun", 6)]

/-- `_DAY_ALIASES[text.strip().lower()]`; no character outside ASCII is lowered
to a letter of these names. -/
def dayAlias? (text : String) : Option Nat :=
  dayAliases.get? (String.ofList ((PyText.stripChars text).map Char.toLower))

/-- `sorted(set(texts))` -/
def sortedSet (texts : List String) : List String :=
  texts.dedup.insertionSort (· ≤ ·)

/-! ## What is wrong with a table -/

def rateAliases : List (List String) :=
  [["prompt", "input"], ["cached_prompt", "cached_input"], ["completion", "output"], ["reasoning"]]

def allowedRateKeys : List String := rateAliases.flatten

def isText : PyJson F → Bool
  | .str text => PyText.hasText text
  | _ => false

def fieldErrors (head field : String) (entries : Dict String (PyJson F)) : List String :=
  if isText (PyJson.getD entries field .null) then [] else [s!"{head}{field}:invalid_string"]

def idErrors (head : String) (seen : List String) (rule : Dict String (PyJson F)) :
    List String × List String :=
  match PyJson.getD rule "id" .null with
  | .str ruleId =>
    if PyText.hasText ruleId = false then ([s!"{head}.id:invalid_string"], seen)
    else if ruleId ∈ seen then ([s!"{head}.id:duplicate"], seen)
    else ([], seen ++ [ruleId])
  | _ => ([s!"{head}.id:invalid_string"], seen)

def ruleTz (configTz : String) (rule : Dict String (PyJson F)) : Option String :=
  match PyJson.getD rule "timezone" .null with
  | .null => some configTz
  | value => zoneinfo zones value

def windowEnd (tz field : String) (rule : Dict String (PyJson F)) : Option DateTime :=
  parseDatetime tz (PyJson.getD rule field .null)

def isNull : PyJson F → Bool
  | .null => true
  | _ => false

def windowEndErrors (head tz field : String) (rule : Dict String (PyJson F)) : List String :=
  if isNull (PyJson.getD rule field .null) || (windowEnd tz field rule).isSome then []
  else [s!"{head}.{field}:invalid_datetime"]

def windowErrors (head tz : String) (rule : Dict String (PyJson F)) :
    Except PyError (List String) :=
  match windowEnd tz "effective_from" rule, windowEnd tz "effective_to" rule with
  | some effectiveFrom, some effectiveTo => do
      let last ← effectiveTo.toUtc zones
      let first ← effectiveFrom.toUtc zones
      return if last ≤ first then [s!"{head}.effective_window:invalid_range"] else []
  | _, _ => .ok []

def aliasErrors (head : String) (rates : Dict String (PyJson F)) (aliases : List String) :
    List String :=
  let present := aliases.filter rates.has
  let name := aliases.headD ""
  (if 1 < present.length then [s!"{head}.rates.{name}:duplicate_alias"] else [])
    ++ (present.filter (fun name => (asDecimal fmt (PyJson.getD rates name .null)).isNone)).map
      (fun name => s!"{head}.rates.{name}:invalid_decimal")

def rateErrors (head : String) (rule : Dict String (PyJson F)) : List String :=
  match PyJson.getD rule "rates" .null with
  | .dict rates =>
    (sortedSet ((Dict.keys rates).filter (· ∉ allowedRateKeys))).map
        (fun key => s!"{head}.rates.{key}:unknown_rate")
      ++ rateAliases.flatMap (aliasErrors fmt head rates)
      ++ (if ["prompt", "input"].any (Dict.has rates) then []
        else [s!"{head}.rates.prompt:missing"])
      ++ (if ["completion", "output"].any (Dict.has rates) then []
        else [s!"{head}.rates.completion:missing"])
  | _ => [s!"{head}.rates:not_object"]

def dayOf? : PyJson F → Option Int
  | .int day => if 0 ≤ day ∧ day ≤ 6 then some day else none
  | .str text => (dayAlias? text).map (fun day => (day : Int))
  | _ => none

def daysErrors (head : String) (band : Dict String (PyJson F)) : List String :=
  match PyJson.getD band "days" .null with
  | .null => []
  | .list (day :: days) =>
    if (day :: days).all (fun day => (dayOf? day).isSome) then []
    else [s!"{head}.days:invalid_day"]
  | _ => [s!"{head}.days:invalid_list"]

def bandErrors (head : String) : PyJson F → List String
  | .dict band =>
    let start := parseClock (PyJson.getD band "start" .null)
    let end' := parseClock (PyJson.getD band "end" .null)
    let multiplier := asDecimal fmt (PyJson.getD band "multiplier" .null)
    (if start.isNone then [s!"{head}.start:invalid_time"] else [])
      ++ (if end'.isNone then [s!"{head}.end:invalid_time"] else [])
      ++ (if start.isSome ∧ start = end' then [s!"{head}.window:invalid_range"] else [])
      ++ (if multiplier.any (0 < ·) then [] else [s!"{head}.multiplier:invalid_decimal"])
      ++ daysErrors head band
  | _ => [s!"{head}:not_object"]

def timeBands (rule : Dict String (PyJson F)) : PyJson F := PyJson.getD rule "time_bands" (.list [])

def bandsErrors (head : String) (rule : Dict String (PyJson F)) : List String :=
  match timeBands rule with
  | .list bands =>
    (bands.zipIdx.map (fun band => bandErrors fmt s!"{head}.time_bands[{band.2}]" band.1)).flatten
  | _ => [s!"{head}.time_bands:not_list"]

def ruleErrors (configTz : String) (seen : List String) (index : Nat) :
    PyJson F → Except PyError (List String × List String)
  | .dict rule => do
      let head := s!"rules[{index}]"
      let (ids, seen) := idErrors head seen rule
      let tz := ruleTz zones configTz rule
      let window ← windowErrors zones head (tz.getD configTz) rule
      let errors := ids
        ++ ["provider", "model"].flatMap (fun field => fieldErrors s!"{head}." field rule)
        ++ (if tz.isNone then [s!"{head}.timezone:invalid_timezone"] else [])
        ++ ["effective_from", "effective_to"].flatMap
            (fun field => windowEndErrors head (tz.getD configTz) field rule)
        ++ window ++ rateErrors fmt head rule ++ bandsErrors fmt head rule
      return (errors, seen)
  | _ => .ok ([s!"rules[{index}]:not_object"], seen)

def rulesErrors (configTz : String) :
    List (PyJson F) → Nat → List String → Except PyError (List String)
  | [], _, _ => .ok []
  | rule :: rules, index, seen => do
      let (errors, seen) ← ruleErrors fmt zones configTz seen index rule
      let rest ← rulesErrors configTz rules (index + 1) seen
      return errors ++ rest

/-! ## Loading a table -/

/-- A normalised table. -/
structure Config (F : Type) where
  version : PyJson F := .str "unconfigured"
  currency : PyJson F := .str "USD"
  timezone : PyJson F := .str "UTC"
  unitTokens : Nat := 1000000
  rules : List (PyJson F) := []

def validatePricingConfig : PyJson F → Except PyError (Config F × List String)
  | .dict raw =>
    let defaults : Config F := {}
    let fields : Dict String (PyJson F) :=
      [("version", PyJson.getD raw "version" defaults.version),
        ("currency", PyJson.getD raw "currency" defaults.currency),
        ("timezone", PyJson.getD raw "timezone" defaults.timezone)]
    let configTz := zoneinfo zones (PyJson.getD raw "timezone" defaults.timezone)
    let unitTokens := ((asTokenInt fmt (PyJson.getD raw "unit_tokens" (.int 1000000))).filter
      (0 < ·))
    let errors := ["version", "currency", "timezone"].flatMap
        (fun field => fieldErrors "" field fields)
      ++ (if configTz.isNone then ["timezone:invalid_timezone"] else [])
      ++ (if unitTokens.isNone then ["unit_tokens:invalid_integer"] else [])
    let config : Config F :=
      { version := PyJson.getD raw "version" defaults.version
        currency := PyJson.getD raw "currency" defaults.currency
        timezone := PyJson.getD raw "timezone" defaults.timezone
        unitTokens := unitTokens.getD 1000000 }
    match PyJson.getD raw "rules" (.list []) with
    | .list rules => do
        let found ← rulesErrors fmt zones (configTz.getD "UTC") rules 0 []
        return ({ config with rules := rules }, errors ++ found)
    | _ => .ok (config, errors ++ ["rules:not_list"])
  | _ => .ok ({}, ["root:not_object"])

inductive ConfigStatus where
  | loaded
  | missing
  | configInvalid
  deriving DecidableEq

/-- `_pricing_snapshot`, without the matched rules. -/
structure Snapshot where
  source : String
  configStatus : ConfigStatus
  version : String
  currency : String
  timezone : String
  unitTokens : Nat
  validationErrors : List String
  deriving DecidableEq

def pricingSnapshot (config : Config F) (source : String) (status : ConfigStatus)
    (errors : List String) : Snapshot where
  source := source
  configStatus := status
  version := config.version.toText fmt
  currency := config.currency.toText fmt
  timezone := config.timezone.toText fmt
  unitTokens := config.unitTokens
  validationErrors := errors

/-- Where the table comes from: the call, or a file of a name, which can be
missing or unreadable. -/
inductive Source (F : Type) where
  | inline (raw : PyJson F)
  | missing (name : String)
  | unreadable (name : String)
  | file (name : String) (raw : PyJson F)

def loadTable (source : String) (raw : PyJson F) : Except PyError (Config F × Snapshot) := do
  let (config, errors) ← validatePricingConfig fmt zones raw
  let status := if errors = [] then .loaded else .configInvalid
  return (config, pricingSnapshot fmt config source status errors)

/-- `load_pricing_config`, and the table given inline. -/
def loadPricingConfig : Source F → Except PyError (Config F × Snapshot)
  | .inline raw => loadTable fmt zones "inline" raw
  | .missing name => .ok ({}, pricingSnapshot fmt {} name .missing [])
  | .unreadable name =>
    .ok ({}, pricingSnapshot fmt {} name .configInvalid ["root:unreadable_or_invalid_json"])
  | .file name raw => loadTable fmt zones name raw

end
end DeterminFlow.Pricing
