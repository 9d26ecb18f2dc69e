/-
  Usage.CostSummary
  **THE USAGE OF A GROUP IS PRICED OR UNPRICED.**

  The usage of a group is known twice: as a total, and by the rows of its call
  ledger.  `_cost_summary` reads the rows as they are stored, and what the total
  has more of than the ledger is unpriced.
-/
import DeterminFlow.Pricing.Charges
import DeterminFlow.Usage.Aggregation

namespace DeterminFlow.Usage

open Library Outcome Pricing List

/-! ## Counters -/

def TokenKey.field : TokenKey → String
  | .promptTokens => "prompt_tokens"
  | .completionTokens => "completion_tokens"
  | .totalTokens => "total_tokens"
  | .cachedTokens => "cached_tokens"
  | .reasoningTokens => "reasoning_tokens"
  | .callCount => "call_count"

section
variable {F : Type} (floatInt : F → FloatInt) (arith : Arithmetic)

/-- `_safe_int`: an infinite float is the one value that raises. -/
def safeInt : PyJson F → Except PyError Nat
  | .null => .ok 0
  | .bool b => .ok b.toNat
  | .int i => .ok i.toNat
  | .float f =>
    match floatInt f with
    | .finite i => .ok i.toNat
    | .nan => .ok 0
    | .infinite => .error .overflowError
  | .str text => .ok (((PyText.intOf? text).getD 0).toNat)
  | .list _ | .dict _ => .ok 0

/-- `_safe_int(entries.get(key, 0))` -/
def readCounter (entries : Dict String (PyJson F)) (key : TokenKey) : Except PyError Nat :=
  safeInt floatInt (PyJson.getD entries key.field (.int 0))

/-- `_usage_from_call`, and the same reading of a total. -/
def readCounts (entries : Dict String (PyJson F)) : Except PyError Counts := do
  let prompt ← readCounter floatInt entries .promptTokens
  let completion ← readCounter floatInt entries .completionTokens
  let total ← readCounter floatInt entries .totalTokens
  let cached ← readCounter floatInt entries .cachedTokens
  let reasoning ← readCounter floatInt entries .reasoningTokens
  let calls ← readCounter floatInt entries .callCount
  return fun
    | .promptTokens => prompt
    | .completionTokens => completion
    | .totalTokens => total
    | .cachedTokens => cached
    | .reasoningTokens => reasoning
    | .callCount => calls

/-! ## The summary -/

/-- The sums of the loop; `broken` counts the rows whose amount cannot be
added. -/
structure Tally where
  ledger : Counts := zeroUsage
  priced : Counts := zeroUsage
  unpriced : Counts := zeroUsage
  amount : Rat := 0
  broken : Nat := 0

def Tally.add (t : Tally) (usage : Counts) (cost : Cost) : Tally :=
  let ledger := addToAggregate t.ledger usage
  if cost.isPriced then
    match arith.round (t.amount + cost.amount) with
    | .ok amount => { t with ledger, priced := addToAggregate t.priced usage, amount }
    | .error _ =>
      { t with ledger, priced := addToAggregate t.priced usage, broken := t.broken + 1 }
  else { t with ledger, unpriced := addToAggregate t.unpriced usage }

def tally (t : Tally) : List (Row F) → Except PyError Tally
  | [] => .ok t
  | row :: rows => do
      let usage ← readCounts floatInt row.fields
      tally (t.add arith usage row.cost) rows

/-- The result of `_cost_summary`. -/
structure RowSummary where
  costStatus : CostStatus
  currency : String
  amount : Rat
  pricedCallCount : Nat
  unpricedCallCount : Nat
  pricedUsage : Counts
  unpricedUsage : Counts

/-- `_cost_summary` -/
def rowSummary (usage : Dict String (PyJson F)) (calls : List (Row F)) (currency : String) :
    Except PyError RowSummary := do
  let t ← tally floatInt arith {} calls
  let total ← readCounts floatInt usage
  let pricedCalls := calls.filter (fun row => row.cost.isPriced)
  let unpricedCalls := calls.filter (fun row => !row.cost.isPriced)
  let unledgered : Counts := fun key => total key - t.ledger key
  let hasUnledgered := tokenKeys.any (fun key => unledgered key ≠ 0)
  let hasPriced := !pricedCalls.isEmpty
  let hasUnpriced := 0 < unpricedCalls.length + t.broken || hasUnledgered
  let amount ← decimalString arith t.amount
  return {
    costStatus :=
      if tokenKeys.all (fun key => total key = 0) then .noUsage
      else if hasPriced && !hasUnpriced then .priced
      else if hasPriced then .partiallyPriced
      else .unpriced
    currency := currency
    amount := amount
    pricedCallCount := pricedCalls.length
    unpricedCallCount := unpricedCalls.length + t.broken + unledgered .callCount
    pricedUsage := t.priced
    unpricedUsage := addToAggregate t.unpriced unledgered }

end

section
variable {F : Type} {floatInt : F → FloatInt} {arith : Arithmetic}

/-! ## The ledger -/

def counter (floatInt : F → FloatInt) (entries : Dict String (PyJson F)) (key : TokenKey) : Nat :=
  ((readCounter floatInt entries key).toOption).getD 0

def Readable (floatInt : F → FloatInt) (entries : Dict String (PyJson F)) : Prop :=
  ∀ key : TokenKey, Returns (readCounter floatInt entries key)

def ledgerSum (floatInt : F → FloatInt) (rows : List (Row F)) (key : TokenKey) : Nat :=
  (rows.map (fun row => counter floatInt row.fields key)).sum

lemma readCounter_eq {entries : Dict String (PyJson F)} (h : Readable floatInt entries)
    (key : TokenKey) : readCounter floatInt entries key = .ok (counter floatInt entries key) := by
  obtain ⟨_, hn⟩ := h key
  rw [counter, hn]
  rfl

lemma readCounts_eq {entries : Dict String (PyJson F)} (h : Readable floatInt entries) :
    readCounts floatInt entries = .ok (counter floatInt entries) := by
  unfold readCounts
  rw [readCounter_eq h, readCounter_eq h, readCounter_eq h, readCounter_eq h, readCounter_eq h,
    readCounter_eq h]
  show Except.ok _ = Except.ok _
  congr 1
  funext key
  cases key <;> rfl

def tallied (floatInt : F → FloatInt) (arith : Arithmetic) (t : Tally) (rows : List (Row F)) : Tally :=
  rows.foldl (fun t row => t.add arith (counter floatInt row.fields) row.cost) t

lemma tallied_cons (t : Tally) (row : Row F) (rows : List (Row F)) :
    tallied floatInt arith t (row :: rows)
      = tallied floatInt arith (t.add arith (counter floatInt row.fields) row.cost) rows := rfl

variable {rows : List (Row F)} {calls : List (PricedCall ι ρ)}

lemma tally_eq (h : ∀ row ∈ rows, Readable floatInt row.fields) (t : Tally) :
    tally floatInt arith t rows = .ok (tallied floatInt arith t rows) := by
  induction rows generalizing t with
  | nil => rfl
  | cons row rows ih =>
    rw [tally, readCounts_eq (h row mem_cons_self)]
    exact ih (fun r hr => h r (mem_cons_of_mem _ hr)) _

lemma Tally.add_usage (t : Tally) (usage : Counts) (cost : Cost) (key : TokenKey) :
    (t.add arith usage cost).ledger key = t.ledger key + usage key
      ∧ (t.add arith usage cost).priced key + (t.add arith usage cost).unpriced key
        = t.priced key + t.unpriced key + usage key := by
  unfold Tally.add
  split
  · split
    all_goals exact ⟨rfl, Nat.add_right_comm _ _ _⟩
  exact ⟨rfl, (Nat.add_assoc _ _ _).symm⟩

lemma tallied_usage (rows : List (Row F)) (t : Tally) (key : TokenKey) :
    (tallied floatInt arith t rows).ledger key = t.ledger key + ledgerSum floatInt rows key
      ∧ (tallied floatInt arith t rows).priced key + (tallied floatInt arith t rows).unpriced key
        = t.priced key + t.unpriced key + ledgerSum floatInt rows key := by
  induction rows generalizing t with
  | nil => exact ⟨rfl, rfl⟩
  | cons row rows ih =>
    obtain ⟨_, _⟩ := ih (t.add arith (counter floatInt row.fields) row.cost)
    obtain ⟨_, _⟩ := @Tally.add_usage arith t (counter floatInt row.fields) row.cost key
    have hsum : ledgerSum floatInt (row :: rows) key
        = counter floatInt row.fields key + ledgerSum floatInt rows key := rfl
    rw [tallied_cons]
    constructor <;> omega

/-! ## The amount -/

lemma decimalString_returns {amount : Rat}
    (h : amount = 0 ∨ Returns (arith.round amount)) : Returns (decimalString arith amount) := by
  unfold decimalString
  split
  · exact returns_ok _
  · next hne => exact h.resolve_left hne

def Tally.Writable (arith : Arithmetic) (t : Tally) : Prop :=
  t.amount = 0 ∨ Returns (arith.round t.amount)

lemma Tally.Writable.add {t : Tally} (h : t.Writable arith) (usage : Counts) (cost : Cost) :
    (t.add arith usage cost).Writable arith := by
  unfold Tally.add
  split
  · split
    · next amount hround => exact .inr (arith.again hround)
    exact h
  exact h

lemma tallied_writable {t : Tally} (h : t.Writable arith) (rows : List (Row F)) :
    (tallied floatInt arith t rows).Writable arith := by
  induction rows generalizing t with
  | nil => exact h
  | cons row rows ih => exact ih (h.add _ _)

def sumFrom (arith : Arithmetic) (amount : Rat) (rows : List (Row F)) : Except PyError Rat :=
  (rows.filter (fun row => row.cost.isPriced)).foldlM
    (fun amount row => arith.round (amount + row.cost.amount)) amount

lemma Tally.broken_le (t : Tally) (usage : Counts) (cost : Cost) :
    t.broken ≤ (t.add arith usage cost).broken := by
  unfold Tally.add
  split
  · split
    · exact le_refl _
    exact Nat.le_succ _
  exact le_refl _

lemma broken_le_tallied (rows : List (Row F)) (t : Tally) :
    t.broken ≤ (tallied floatInt arith t rows).broken := by
  induction rows generalizing t with
  | nil => exact le_refl _
  | cons row rows ih => exact (t.broken_le _ _).trans (ih _)

lemma tallied_broken (rows : List (Row F)) (t : Tally) :
    (tallied floatInt arith t rows).broken = t.broken ↔ Returns (sumFrom arith t.amount rows) := by
  induction rows generalizing t with
  | nil => exact iff_of_true rfl (returns_pure _)
  | cons row rows ih =>
    have hnext := ih (t.add arith (counter floatInt row.fields) row.cost)
    have hgrows := @broken_le_tallied F floatInt arith rows
      (t.add arith (counter floatInt row.fields) row.cost)
    cases hpriced : row.cost.isPriced with
    | false =>
      -- the sums pass an unpriced row by
      have hamount : (t.add arith (counter floatInt row.fields) row.cost).amount = t.amount
          ∧ (t.add arith (counter floatInt row.fields) row.cost).broken = t.broken := by
        unfold Tally.add
        rw [hpriced]
        exact ⟨rfl, rfl⟩
      have hsum : sumFrom arith t.amount (row :: rows) = sumFrom arith t.amount rows := by
        unfold sumFrom
        rw [filter_cons_of_neg (by rw [hpriced]; exact Bool.false_ne_true)]
      rw [hsum, ← hamount.1, ← hnext, hamount.2]
      rfl
    | true =>
      have hsum : sumFrom arith t.amount (row :: rows)
          = (arith.round (t.amount + row.cost.amount)) >>= (fun amount => sumFrom arith amount rows) := by
        unfold sumFrom
        rw [@filter_cons_of_pos _ (fun row : Row F => row.cost.isPriced) row rows hpriced,
          foldlM_cons]
      rw [hsum, returns_bind_iff]
      cases hround : arith.round (t.amount + row.cost.amount) with
      | ok amount =>
        have hadd : (t.add arith (counter floatInt row.fields) row.cost).amount = amount
            ∧ (t.add arith (counter floatInt row.fields) row.cost).broken = t.broken := by
          unfold Tally.add
          rw [hpriced, hround]
          exact ⟨rfl, rfl⟩
        rw [hadd.1, hadd.2] at hnext
        constructor
        · intro h
          exact ⟨amount, rfl, hnext.1 h⟩
        intro h
        obtain ⟨a, ha, h⟩ := h
        obtain rfl := Except.ok.inj ha
        exact hnext.2 h
      | error =>
        have hadd : (t.add arith (counter floatInt row.fields) row.cost).broken = t.broken + 1 := by
          unfold Tally.add
          rw [hpriced, hround]
          rfl
        constructor
        · intro h
          rw [tallied_cons] at h
          omega
        intro h
        obtain ⟨a, ha, -⟩ := h
        cases ha

/-! ## The summary of a group -/

lemma hasUnledgered_iff (total ledger : Counts) :
    tokenKeys.any (fun key => decide (total key - ledger key ≠ 0)) = false
      ↔ ∀ key, total key ≤ ledger key := by
  rw [any_eq_false]
  constructor
  · intro h key
    have hkey := h key (by cases key <;> decide)
    simp only [decide_eq_true_eq, not_not] at hkey
    omega
  intro h key _
  have hkey := h key
  simp only [decide_eq_true_eq, not_not]
  omega

lemma noUsage_iff (total : Counts) :
    tokenKeys.all (fun key => decide (total key = 0)) = false ↔ ∃ key, total key ≠ 0 := by
  rw [← Bool.not_eq_true, all_eq_true]
  constructor
  · intro h
    by_contra hzero
    apply h
    intro key _
    have hkey : total key = 0 := not_not.1 (fun hne => hzero ⟨key, hne⟩)
    exact decide_eq_true hkey
  intro h hall
  obtain ⟨key, hkey⟩ := h
  exact hkey (of_decide_eq_true (hall key (by cases key <;> decide)))

lemma status_priced_iff (noUsage hasPriced hasUnpriced : Bool) :
    (if noUsage then CostStatus.noUsage
      else if hasPriced && !hasUnpriced then .priced
      else if hasPriced then .partiallyPriced
      else .unpriced) = .priced ↔ noUsage = false ∧ hasPriced = true ∧ hasUnpriced = false := by
  cases noUsage <;> cases hasPriced <;> cases hasUnpriced <;> decide

/-- No call of the group is unpriced: each has the status, and its amount can be
added to those before it. -/
def NoneUnpriced (arith : Arithmetic) (calls : List (Row F)) : Prop :=
  (∀ row ∈ calls, row.cost.isPriced = true) ∧ Returns (sumCostAmount arith calls)

/-- **The usage of a group is partitioned**: for every counter the priced and the
unpriced usage are the larger of the total and the ledger, and the group is
priced exactly when it has usage, a priced call, no unpriced one, and nothing
that the ledger lacks. -/
theorem costSummary_partitions {usage : Dict String (PyJson F)} {calls : List (Row F)}
    (currency : String) (husage : Readable floatInt usage)
    (hcalls : ∀ row ∈ calls, Readable floatInt row.fields) :
    ∃ summary, rowSummary floatInt arith usage calls currency = .ok summary
      ∧ (∀ key, summary.pricedUsage key + summary.unpricedUsage key
        = max (counter floatInt usage key) (ledgerSum floatInt calls key))
      ∧ (summary.costStatus = .priced ↔
        (∃ key, counter floatInt usage key ≠ 0) ∧ (∃ row ∈ calls, row.cost.isPriced = true)
          ∧ NoneUnpriced arith calls
          ∧ ∀ key, counter floatInt usage key ≤ ledgerSum floatInt calls key) := by
  obtain ⟨amount, hamount⟩ := decimalString_returns
    (@tallied_writable F floatInt arith {} (.inl rfl) calls)
  have hledger : ∀ key, (tallied floatInt arith {} calls).ledger key = ledgerSum floatInt calls key :=
    fun key => ((tallied_usage calls {} key).1).trans (Nat.zero_add _)
  unfold rowSummary
  rw [tally_eq hcalls, readCounts_eq husage]
  refine ⟨_, bind_eq_ok_iff.2 ⟨_, rfl, bind_eq_ok_iff.2 ⟨_, rfl,
    bind_eq_ok_iff.2 ⟨amount, hamount, rfl⟩⟩⟩, ?_, ?_⟩
  · intro key
    have hparts := (@tallied_usage F floatInt arith calls {} key).2
    have hzero : (({} : Tally).priced key + ({} : Tally).unpriced key) = 0 := rfl
    have hkey := hledger key
    show (tallied floatInt arith {} calls).priced key + ((tallied floatInt arith {} calls).unpriced key
      + (counter floatInt usage key - (tallied floatInt arith {} calls).ledger key)) = _
    omega
  have hbroken := @tallied_broken F floatInt arith calls {}
  rw [status_priced_iff, noUsage_iff, Bool.or_eq_false_iff, hasUnledgered_iff]
  apply and_congr Iff.rfl
  apply and_congr
  · rw [Bool.not_eq_true', isEmpty_eq_false_iff]
    constructor
    · intro h
      obtain ⟨row, hrow⟩ := exists_mem_of_ne_nil _ h
      exact ⟨row, (mem_filter.1 hrow).1, (mem_filter.1 hrow).2⟩
    intro h
    obtain ⟨row, hrow, hpriced⟩ := h
    exact ne_nil_of_mem (mem_filter.2 ⟨hrow, hpriced⟩)
  apply and_congr
  · have hnone : (calls.filter (fun row => !row.cost.isPriced)).length = 0
        ↔ ∀ row ∈ calls, row.cost.isPriced = true := by
      rw [length_eq_zero_iff, filter_eq_nil_iff]
      apply forall₂_congr
      intro row _
      rw [Bool.not_eq_true', Bool.not_eq_false]
    rw [decide_eq_false_iff_not, Nat.not_lt, Nat.le_zero, Nat.add_eq_zero_iff, hnone]
    exact and_congr Iff.rfl hbroken
  apply forall_congr'
  intro key
  rw [hledger key]

def noFloats : Empty → FloatInt := fun f => nomatch f

def fiveTokens : Dict String (PyJson Empty) :=
  [("prompt_tokens", .int 5), ("total_tokens", .int 5), ("call_count", .int 2)]

def threePriced : Row Empty where
  fields := [("prompt_tokens", .int 3), ("total_tokens", .int 3), ("call_count", .int 1)]
  currency := "USD"
  cost := .priced 3 3 0 0 0

theorem fiveTokens_partition :
    ∃ summary, rowSummary noFloats .exact fiveTokens [threePriced] "USD" = .ok summary
      ∧ (∀ key, summary.pricedUsage key + summary.unpricedUsage key
        = max (counter noFloats fiveTokens key) (ledgerSum noFloats [threePriced] key))
      ∧ (summary.costStatus = .priced ↔ (∃ key, counter noFloats fiveTokens key ≠ 0)
          ∧ (∃ row ∈ [threePriced], row.cost.isPriced = true) ∧ NoneUnpriced .exact [threePriced]
          ∧ ∀ key, counter noFloats fiveTokens key ≤ ledgerSum noFloats [threePriced] key) := by
  apply costSummary_partitions "USD"
  · intro key
    cases key <;> exact ⟨_, rfl⟩
  intro row hrow key
  obtain rfl := mem_singleton.1 hrow
  cases key <;> exact ⟨_, rfl⟩

/-! ## The summary of the aggregation -/

variable {ι ρ : Type}

/-- The stored row is the priced call: its counters and its amount are read. -/
structure Reads (floatInt : F → FloatInt) (row : Row F) (call : PricedCall ι ρ) : Prop where
  readable : Readable floatInt row.fields
  counts : counter floatInt row.fields = call.call.counts
  priced : row.cost.isPriced = call.amount.isSome
  amount : row.cost.amount = (call.amount.getD 0 : NNRat)

lemma Reads.unpriced {row : Row F} {call : PricedCall ι ρ} (h : Reads floatInt row call) :
    (!row.cost.isPriced) = call.amount.isNone := by
  rw [h.priced]
  cases call.amount <;> rfl

lemma readable_of_reads (h : List.Forall₂ (Reads floatInt) rows calls) :
    ∀ row ∈ rows, Readable floatInt row.fields := by
  induction h with
  | nil => exact nofun
  | cons hrow _ ih =>
    intro row hmem
    rcases mem_cons.1 hmem with rfl | hmem
    · exact hrow.readable
    exact ih row hmem

lemma isEmpty_eq {α β : Type} {R : α → β → Prop} {l : List α} {l' : List β}
    (h : List.Forall₂ R l l') : l.isEmpty = l'.isEmpty := by
  cases h <;> rfl

lemma ledgerSum_eq (h : List.Forall₂ (Reads floatInt) rows calls) (key : TokenKey) :
    ledgerSum floatInt rows key = (calls.map (fun call => call.call.counts key)).sum := by
  induction h with
  | nil => rfl
  | cons hrow _ ih =>
    show counter floatInt _ key + ledgerSum floatInt _ key = _
    rw [hrow.counts, ih]
    rfl

lemma usageOf_eq (calls : List (PricedCall ι ρ)) (key : TokenKey) :
    usageOf calls key = (calls.map (fun call => call.call.counts key)).sum := by
  have hfrom : ∀ usage : Counts,
      calls.foldl (fun usage call => addToAggregate usage call.call.counts) usage key
        = usage key + (calls.map (fun call => call.call.counts key)).sum := by
    induction calls with
    | nil => exact fun _ => rfl
    | cons call calls ih =>
      intro usage
      rw [foldl_cons, ih, map_cons, sum_cons]
      exact Nat.add_assoc _ _ _
  exact (hfrom zeroUsage).trans (Nat.zero_add _)

lemma tallied_parts (rows : List (Row F)) (t : Tally) (key : TokenKey) :
    (tallied floatInt arith t rows).priced key
        = t.priced key + ledgerSum floatInt (rows.filter (fun row => row.cost.isPriced)) key
      ∧ (tallied floatInt arith t rows).unpriced key
        = t.unpriced key + ledgerSum floatInt (rows.filter (fun row => !row.cost.isPriced)) key := by
  induction rows generalizing t with
  | nil => exact ⟨rfl, rfl⟩
  | cons row rows ih =>
    obtain ⟨hpriced, hunpriced⟩ := ih (t.add arith (counter floatInt row.fields) row.cost)
    rw [tallied_cons, hpriced, hunpriced]
    have hsum : ∀ rest : List (Row F), ledgerSum floatInt (row :: rest) key
        = counter floatInt row.fields key + ledgerSum floatInt rest key := fun _ => rfl
    cases hcost : row.cost.isPriced with
    | true =>
      have hadd : (t.add arith (counter floatInt row.fields) row.cost).priced
          = addToAggregate t.priced (counter floatInt row.fields)
          ∧ (t.add arith (counter floatInt row.fields) row.cost).unpriced = t.unpriced := by
        unfold Tally.add
        rw [hcost]
        cases arith.round (t.amount + row.cost.amount) with
        | _ => exact ⟨rfl, rfl⟩
      rw [filter_cons, filter_cons, hcost, hadd.1, hadd.2, if_pos rfl,
        if_neg (by decide : ¬ (!true) = true), hsum]
      exact ⟨Nat.add_assoc _ _ _, rfl⟩
    | false =>
      have hadd : (t.add arith (counter floatInt row.fields) row.cost).priced = t.priced
          ∧ (t.add arith (counter floatInt row.fields) row.cost).unpriced
            = addToAggregate t.unpriced (counter floatInt row.fields) := by
        unfold Tally.add
        rw [hcost]
        exact ⟨rfl, rfl⟩
      rw [filter_cons, filter_cons, hcost, hadd.1, hadd.2, if_neg Bool.false_ne_true,
        if_pos (by decide : (!false) = true), hsum]
      exact ⟨rfl, Nat.add_assoc _ _ _⟩

lemma tallied_amount (rows : List (Row F)) (t : Tally) :
    (tallied floatInt .exact t rows).amount = t.amount + (rows.map (fun row => row.cost.amount)).sum := by
  induction rows generalizing t with
  | nil => exact (add_zero _).symm
  | cons row rows ih =>
    have hadd : (t.add .exact (counter floatInt row.fields) row.cost).amount
        = t.amount + row.cost.amount := by
      unfold Tally.add
      cases row.cost with
      | priced => rfl
      | unpriced => exact (add_zero _).symm
    rw [tallied_cons, ih, hadd, map_cons, sum_cons, add_assoc]

lemma sumFrom_exact (amount : Rat) (rows : List (Row F)) : Returns (sumFrom .exact amount rows) := by
  unfold sumFrom
  induction rows.filter (fun row => row.cost.isPriced) generalizing amount with
  | nil => exact returns_pure _
  | cons row rows ih => exact ih _

lemma amountOf_eq (h : List.Forall₂ (Reads floatInt) rows calls) :
    (rows.map (fun row => row.cost.amount)).sum = (amountOf calls : NNRat) := by
  unfold amountOf
  induction h with
  | nil => rfl
  | cons hrow _ ih =>
    rw [map_cons, sum_cons, map_cons, sum_cons, ih, hrow.amount, NNRat.cast_add]

/-- The summary of stored rows says what the one of the aggregation says. -/
structure RowSummary.Agrees (s : RowSummary) (t : CostSummary) : Prop where
  costStatus : s.costStatus = t.costStatus
  currency : s.currency = t.currency
  amount : s.amount = (t.amount : NNRat)
  pricedCallCount : s.pricedCallCount = t.pricedCallCount
  unpricedCallCount : s.unpricedCallCount = t.unpricedCallCount
  pricedUsage : s.pricedUsage = t.pricedUsage
  unpricedUsage : s.unpricedUsage = t.unpricedUsage

/-- **The stored rows are summed as the calls are.** -/
theorem costSummary_refines {usage : Dict String (PyJson F)} (currency : String)
    (husage : Readable floatInt usage) (hrows : List.Forall₂ (Reads floatInt) rows calls) :
    ∃ summary, rowSummary floatInt .exact usage rows currency = .ok summary
      ∧ summary.Agrees (costSummary (counter floatInt usage) calls currency) := by
  have hreadable := readable_of_reads hrows
  have hpriced : List.Forall₂ (Reads floatInt) (rows.filter (fun row => row.cost.isPriced))
      (calls.filter (fun call => call.amount.isSome)) :=
    rel_filter (fun row call h => iff_of_eq (congrArg (· = true) h.priced)) hrows
  have hunpriced : List.Forall₂ (Reads floatInt) (rows.filter (fun row => !row.cost.isPriced))
      (calls.filter (fun call => call.amount.isNone)) :=
    rel_filter (fun row call h => iff_of_eq (congrArg (· = true) h.unpriced)) hrows
  have hledger : (tallied floatInt .exact {} rows).ledger = usageOf calls := by
    funext key
    rw [usageOf_eq, ← ledgerSum_eq hrows]
    exact ((tallied_usage rows {} key).1).trans (Nat.zero_add _)
  have hpricedUsage : (tallied floatInt .exact {} rows).priced
      = usageOf (calls.filter (fun call => call.amount.isSome)) := by
    funext key
    rw [usageOf_eq, ← ledgerSum_eq hpriced]
    exact ((tallied_parts rows {} key).1).trans (Nat.zero_add _)
  have hunpricedUsage : (tallied floatInt .exact {} rows).unpriced
      = usageOf (calls.filter (fun call => call.amount.isNone)) := by
    funext key
    rw [usageOf_eq, ← ledgerSum_eq hunpriced]
    exact ((tallied_parts rows {} key).2).trans (Nat.zero_add _)
  have hbroken : (tallied floatInt .exact {} rows).broken = 0 :=
    (tallied_broken rows {}).2 (sumFrom_exact _ _)
  have hamount : (tallied floatInt .exact {} rows).amount = (amountOf calls : NNRat) := by
    rw [tallied_amount, amountOf_eq hrows]
    exact zero_add _
  unfold rowSummary
  rw [tally_eq hreadable, readCounts_eq husage]
  refine ⟨_, bind_eq_ok_iff.2 ⟨_, rfl, bind_eq_ok_iff.2 ⟨_, rfl,
    bind_eq_ok_iff.2 ⟨_, decimalString_exact _, rfl⟩⟩⟩, ?_⟩
  have hsome : decide (0 < (rows.filter (fun row => !row.cost.isPriced)).length
      + (tallied floatInt .exact {} rows).broken)
      = !(calls.filter (fun call => call.amount.isNone)).isEmpty := by
    rw [hbroken, hunpriced.length_eq]
    cases calls.filter (fun call => call.amount.isNone) <;> rfl
  constructor
  · simp only [isEmpty_eq hpriced, hsome, hledger]
    rfl
  · rfl
  · exact hamount
  · exact hpriced.length_eq
  · show _ + _ + _ = _ + _
    rw [hbroken, hunpriced.length_eq, hledger]
    rfl
  · exact hpricedUsage
  rw [hunpricedUsage, hledger]
  rfl

end

/-- The call whose row is `threePriced`. -/
def threeCall : PricedCall Unit Unit where
  call := ⟨⟨"c", true⟩, (), "", "", "", "", "", "", "", counter noFloats threePriced.fields, ()⟩
  amount := some 3

theorem costSummary_refines_five :
    ∃ summary, rowSummary noFloats .exact fiveTokens [threePriced] "USD" = .ok summary
      ∧ summary.Agrees (costSummary (counter noFloats fiveTokens) [threeCall] "USD") := by
  refine costSummary_refines "USD" ?_ (.cons ⟨?_, rfl, rfl, rfl⟩ .nil)
  all_goals intro key
  all_goals cases key <;> exact ⟨_, rfl⟩

end DeterminFlow.Usage
