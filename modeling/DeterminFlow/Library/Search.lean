/-
  Library.Search
  **WORKLIST EXPLORATION OF A FINITE EDGE LIST.**

  One loop covers the breadth-first and depth-first searches of a graph
  given as a list of edges: a work list (used as a queue or as a stack), a
  list of the nodes seen so far, a test `skip` that cuts the search, and a
  filter `keep` that may drop successors before they are put on the work
  list.  The node list comes back in visiting order.
-/
import Mathlib.Data.Finset.Card
import Mathlib.Data.Fintype.Basic

namespace DeterminFlow.Library

open Relation List

variable {α : Type*}

/-! ## Edges and paths -/

/-- Successors of `x` in edge order, parallel edges included. -/
def outs [DecidableEq α] (edges : List (α × α)) (x : α) : List α :=
  (edges.filter (fun e => e.1 = x)).map (·.2)

variable {y x : α} {S : α → Prop} {roots : List α} {fuel : Nat}

@[simp] lemma mem_outs [DecidableEq α] {edges : List (α × α)} :
    y ∈ outs edges x ↔ (x, y) ∈ edges := by
  simp [outs]

def Hop (edges : List (α × α)) (skip : α → Bool) (x y : α) : Prop :=
  (x, y) ∈ edges ∧ skip y = false

/-- `y` is reached from `x` along edges, neither `x` nor any later node
being skipped. -/
def Reaches (edges : List (α × α)) (skip : α → Bool) (x y : α) : Prop :=
  skip x = false ∧ ReflTransGen (Hop edges skip) x y

lemma Reaches.refl {edges : List (α × α)} {skip : α → Bool} (hx : skip x = false) :
    Reaches edges skip x x :=
  ⟨hx, ReflTransGen.refl⟩

lemma Reaches.tail {edges : List (α × α)} {skip : α → Bool} {x y z : α}
    (h : Reaches edges skip x y) (hyz : Hop edges skip y z) : Reaches edges skip x z :=
  ⟨h.1, h.2.tail hyz⟩

lemma Reaches.mem_of_closed {edges : List (α × α)} {skip : α → Bool} (h : Reaches edges skip x y)
    (hx : S x) (hclosed : ∀ a b, S a → Hop edges skip a b → S b) : S y := by
  obtain ⟨_, hpath⟩ := h
  induction hpath with
  | refl => exact hx
  | tail _ hbc ih => exact hclosed _ _ ih hbc

lemma Reaches.last_exit {edges : List (α × α)} {skip : α → Bool} (h : Reaches edges skip x y)
    (hx : S x) (hy : ¬ S y) : ∃ u v, S u ∧ Hop edges skip u v ∧ ¬ S v ∧
      ReflTransGen (fun a b => Hop edges skip a b ∧ ¬ S b) v y := by
  obtain ⟨_, hpath⟩ := h
  induction hpath with
  | refl => exact absurd hx hy
  | @tail b c _ hbc ih =>
    by_cases hb : S b
    · exact ⟨b, c, hb, hbc, hy, ReflTransGen.refl⟩
    obtain ⟨u, v, hu, huv, hv, hpath⟩ := ih hb
    exact ⟨u, v, hu, huv, hv, hpath.tail ⟨hbc, hy⟩⟩

/-! ## The exploration loop -/

/-- How new nodes join the work list. -/
inductive Discipline where
  /-- Breadth first: take from the front, append at the back. -/
  | queue
  /-- Depth first: append at the top, take the last one appended. -/
  | stack
  deriving DecidableEq

/-- Put `new` on the work list; the next node taken is its head. -/
def Discipline.push (o : Discipline) (work new : List α) : List α :=
  match o with
  | .queue => work ++ new
  | .stack => new.reverse ++ work

@[simp] lemma Discipline.mem_push (o : Discipline) {work new : List α} :
    x ∈ o.push work new ↔ x ∈ work ∨ x ∈ new := by
  cases o <;> simp [Discipline.push, or_comm]

@[simp] lemma Discipline.length_push (o : Discipline) (work new : List α) :
    (o.push work new).length = work.length + new.length := by
  cases o <;> simp [Discipline.push, Nat.add_comm]

/-- **The worklist loop.**  `seen` doubles as the visiting order. -/
def explore [DecidableEq α] (edges : List (α × α)) (o : Discipline) (skip : α → Bool)
    (keep : List α → α → Bool) : Nat → List α → List α → List α
  | 0, _, seen => seen
  | _ + 1, [], seen => seen
  | fuel + 1, x :: work, seen =>
    if x ∈ seen ∨ skip x = true then
      explore edges o skip keep fuel work seen
    else
      explore edges o skip keep fuel
        (o.push work ((outs edges x).filter (keep (seen ++ [x])))) (seen ++ [x])

def pending [DecidableEq α] (edges : List (α × α)) (seen : List α) : List (α × α) :=
  edges.filter (fun e => !decide (e.1 ∈ seen))

lemma pending_length_insert [DecidableEq α] (edges : List (α × α)) {seen : List α}
    (hx : x ∉ seen) : (pending edges (seen ++ [x])).length + (outs edges x).length
      = (pending edges seen).length := by
  induction edges with
  | nil => rfl
  | cons e es ih =>
    simp only [pending, outs, length_map, mem_append, mem_singleton] at ih ⊢
    by_cases hex : e.1 = x
    · simp [hex, hx] at ih ⊢
      omega
    by_cases hseen : e.1 ∈ seen <;> simp [hex, hseen] at ih ⊢ <;> omega

variable {edges : List (α × α)} {o : Discipline} {skip : α → Bool}
  {keep : List α → α → Bool}

/-- What the loop keeps: the seen nodes are reached, the work list is at
hand, and every unskipped successor of a seen node is seen or queued. -/
structure Exploring (edges : List (α × α)) (skip : α → Bool)
    (roots work seen : List α) : Prop where
  rooted : ∀ x ∈ roots, skip x = false → x ∈ seen ∨ x ∈ work
  seen_reached : ∀ x ∈ seen, ∃ r ∈ roots, Reaches edges skip r x
  work_reached : ∀ x ∈ work, skip x = false → ∃ r ∈ roots, Reaches edges skip r x
  closed : ∀ x ∈ seen, ∀ y, Hop edges skip x y → y ∈ seen ∨ y ∈ work

lemma Exploring.start (roots : List α) : Exploring edges skip roots roots [] where
  rooted := fun _ hx _ => .inr hx
  seen_reached := by simp
  work_reached := fun x hx hskip => ⟨x, hx, Reaches.refl hskip⟩
  closed := by simp

lemma Exploring.drop {work seen : List α} (h : Exploring edges skip roots (x :: work) seen)
    (hx : x ∈ seen ∨ skip x = true) : Exploring edges skip roots work seen where
  rooted := by
    intro r hr hskip
    rcases h.rooted r hr hskip with hs | hw
    · exact .inl hs
    rcases mem_cons.1 hw with rfl | hw
    · rcases hx with hx | hx
      · exact .inl hx
      rw [hx] at hskip; cases hskip
    exact .inr hw
  seen_reached := h.seen_reached
  work_reached := fun y hy => h.work_reached y (mem_cons_of_mem _ hy)
  closed := by
    intro a ha y hy
    rcases h.closed a ha y hy with hs | hw
    · exact .inl hs
    rcases mem_cons.1 hw with rfl | hw
    · rcases hx with hx | hx
      · exact .inl hx
      exact absurd hy.2 (by rw [hx]; simp)
    exact .inr hw

variable [DecidableEq α]

lemma Exploring.visit {work seen : List α} (h : Exploring edges skip roots (x :: work) seen)
    (hskip : skip x = false) (hkeep : ∀ s y, keep s y = false → y ∈ s ∨ skip y = true) :
    Exploring edges skip roots
      (o.push work ((outs edges x).filter (keep (seen ++ [x])))) (seen ++ [x]) where
  rooted := by
    intro r hr hrskip
    rcases h.rooted r hr hrskip with hs | hw
    · exact .inl (mem_append_left _ hs)
    rcases mem_cons.1 hw with rfl | hw
    · exact .inl (by simp)
    exact .inr (by simp [hw])
  seen_reached := by
    intro a ha
    rcases mem_append.1 ha with ha | ha
    · exact h.seen_reached a ha
    rw [mem_singleton.1 ha]
    exact h.work_reached x (by simp) hskip
  work_reached := by
    intro y hy hyskip
    rcases (Discipline.mem_push o).1 hy with hy | hy
    · exact h.work_reached y (mem_cons_of_mem _ hy) hyskip
    have hxy : (x, y) ∈ edges := mem_outs.1 (mem_of_mem_filter hy)
    obtain ⟨r, hr, hrx⟩ := h.work_reached x (by simp) hskip
    exact ⟨r, hr, hrx.tail ⟨hxy, hyskip⟩⟩
  closed := by
    intro a ha y hay
    by_cases hk : keep (seen ++ [x]) y = false
    · rcases hkeep _ _ hk with hs | hs
      · exact .inl hs
      exact absurd hay.2 (by rw [hs]; simp)
    rcases mem_append.1 ha with ha | ha
    · rcases h.closed a ha y hay with hs | hw
      · exact .inl (mem_append_left _ hs)
      rcases mem_cons.1 hw with rfl | hw
      · exact .inl (by simp)
      exact .inr (by simp [hw])
    have hax : a = x := by simpa using ha
    subst hax
    refine .inr ((Discipline.mem_push o).2 (.inr ?_))
    exact mem_filter.2 ⟨mem_outs.2 hay.1, by simpa using hk⟩

lemma explore_spec (hkeep : ∀ s y, keep s y = false → y ∈ s ∨ skip y = true) (roots : List α) :
    ∀ (fuel : Nat) (work seen : List α),
      work.length + (pending edges seen).length < fuel →
      Exploring edges skip roots work seen →
      Exploring edges skip roots [] (explore edges o skip keep fuel work seen) := by
  intro fuel
  induction fuel with
  | zero => intro work seen hfuel; omega
  | succ fuel ih =>
    intro work seen hfuel h
    cases work with
    | nil => exact h
    | cons x work =>
      by_cases hx : x ∈ seen ∨ skip x = true
      · rw [explore, if_pos hx]
        refine ih work seen ?_ (h.drop hx)
        simp only [length_cons] at hfuel
        omega
      rw [explore, if_neg hx]
      have hfresh : x ∉ seen := fun hs => hx (.inl hs)
      have hskip : skip x = false := by
        cases hs : skip x
        · rfl
        exact absurd (.inr hs) hx
      refine ih _ _ ?_ (h.visit hskip hkeep)
      have hcount := pending_length_insert edges hfresh
      have hfilter := length_filter_le (keep (seen ++ [x])) (outs edges x)
      simp only [Discipline.length_push, length_cons] at hfuel ⊢
      omega

lemma mem_explore (hkeep : ∀ s y, keep s y = false → y ∈ s ∨ skip y = true)
    (hfuel : roots.length + edges.length < fuel) : y ∈ explore edges o skip keep fuel roots []
      ↔ ∃ r ∈ roots, Reaches edges skip r y := by
  have hpending : (pending edges ([] : List α)).length ≤ edges.length :=
    length_filter_le _ _
  have h : Exploring edges skip roots [] (explore edges o skip keep fuel roots []) :=
    explore_spec hkeep roots fuel roots [] (by omega) (Exploring.start roots)
  constructor
  · intro hy
    exact h.seen_reached y hy
  rintro ⟨r, hr, hry⟩
  have hrseen : r ∈ explore edges o skip keep fuel roots [] := by
    rcases h.rooted r hr hry.1 with hs | hw
    · exact hs
    cases hw
  refine hry.mem_of_closed (S := fun z => z ∈ explore edges o skip keep fuel roots [])
    hrseen ?_
  intro a b ha hab
  rcases h.closed a ha b hab with hs | hw
  · exact hs
  cases hw

/-- The search from `roots` with fuel for the whole graph. -/
def search (edges : List (α × α)) (o : Discipline) (skip : α → Bool)
    (keep : List α → α → Bool) (roots : List α) : List α :=
  explore edges o skip keep (roots.length + edges.length + 1) roots []

lemma mem_search (hkeep : ∀ s y, keep s y = false → y ∈ s ∨ skip y = true) :
    y ∈ search edges o skip keep roots ↔ ∃ r ∈ roots, Reaches edges skip r y :=
  mem_explore hkeep (by omega)

/-! ## Walks with one successor per node -/

/-- Follow `next` from `current` and list the nodes until it stops or comes
back to a node already listed. -/
def walk (next : α → Option α) : Nat → List α → Option α → List α
  | 0, _, _ => []
  | _ + 1, _, none => []
  | fuel + 1, seen, some x =>
    if x ∈ seen then [] else x :: walk next fuel (seen ++ [x]) (next x)

/-- `y` is on the orbit of `x` under `next`. -/
def Follows (next : α → Option α) (x y : α) : Prop :=
  ReflTransGen (fun a b => next a = some b) x y

variable {next : α → Option α}

lemma walk_seen_disjoint : ∀ (fuel : Nat) (seen : List α) (current : Option α) (y : α),
      y ∈ walk next fuel seen current → y ∉ seen := by
  intro fuel
  induction fuel with
  | zero => intro seen current y hy; simp [walk] at hy
  | succ fuel ih =>
    intro seen current y hy
    cases current with
    | none => simp [walk] at hy
    | some x =>
      by_cases hx : x ∈ seen
      · simp [walk, hx] at hy
      rw [walk, if_neg hx] at hy
      rcases mem_cons.1 hy with rfl | hy
      · exact hx
      intro hs
      exact ih _ _ _ hy (mem_append_left _ hs)

lemma nodup_walk : ∀ (fuel : Nat) (seen : List α) (current : Option α),
      (walk next fuel seen current).Nodup := by
  intro fuel
  induction fuel with
  | zero => intro seen current; exact nodup_nil
  | succ fuel ih =>
    intro seen current
    cases current with
    | none => exact nodup_nil
    | some x =>
      by_cases hx : x ∈ seen
      · rw [walk, if_pos hx]; exact nodup_nil
      rw [walk, if_neg hx]
      refine nodup_cons.2 ⟨?_, ih _ _⟩
      intro hmem
      exact walk_seen_disjoint _ _ _ _ hmem (by simp)

lemma walk_follows : ∀ (fuel : Nat) (seen : List α) (x y : α),
      y ∈ walk next fuel seen (some x) → Follows next x y := by
  intro fuel
  induction fuel with
  | zero => intro seen x y hy; simp [walk] at hy
  | succ fuel ih =>
    intro seen x y hy
    by_cases hx : x ∈ seen
    · simp [walk, hx] at hy
    rw [walk, if_neg hx] at hy
    rcases mem_cons.1 hy with rfl | hy
    · exact ReflTransGen.refl
    cases hnext : next x with
    | none =>
      rw [hnext] at hy
      cases fuel <;> simp [walk] at hy
    | some =>
      rw [hnext] at hy
      exact ReflTransGen.head hnext (ih _ _ _ hy)

lemma walk_closed {ids : List α} (hids : ∀ x ∈ ids, ∀ y, next x = some y → y ∈ ids) :
    ∀ (fuel : Nat) (seen : List α) (x : α), x ∈ ids →
      (ids.toFinset \ seen.toFinset).card < fuel →
      (x ∈ seen ∨ x ∈ walk next fuel seen (some x)) ∧
      ∀ a ∈ walk next fuel seen (some x), ∀ b, next a = some b →
        b ∈ seen ∨ b ∈ walk next fuel seen (some x) := by
  intro fuel
  induction fuel with
  | zero => intro seen x _ hfuel; omega
  | succ fuel ih =>
    intro seen x hx hfuel
    by_cases hseen : x ∈ seen
    · rw [walk, if_pos hseen]
      exact ⟨.inl hseen, by simp⟩
    rw [walk, if_neg hseen]
    refine ⟨.inr (by simp), ?_⟩
    have hcard : (ids.toFinset \ (seen ++ [x]).toFinset).card < fuel := by
      have hlt : (ids.toFinset \ (seen ++ [x]).toFinset).card
          < (ids.toFinset \ seen.toFinset).card := by
        apply Finset.card_lt_card
        refine Finset.ssubset_iff_of_subset ?_ |>.2 ⟨x, ?_, ?_⟩
        · intro z hz
          simp only [Finset.mem_sdiff, mem_toFinset, mem_append] at hz ⊢
          exact ⟨hz.1, fun h => hz.2 (.inl h)⟩
        · simp [hx, hseen]
        simp
      omega
    intro a ha b hab
    rcases mem_cons.1 ha with rfl | ha
    · obtain ⟨hb, _⟩ := ih (seen ++ [a]) b (hids a hx b hab) hcard
      rw [hab]
      rcases hb with hb | hb
      · rcases mem_append.1 hb with hb | hb
        · exact .inl hb
        exact .inr (by simp [mem_singleton.1 hb])
      exact .inr (mem_cons_of_mem _ hb)
    cases hnext : next x with
    | none =>
      rw [hnext] at ha
      cases fuel <;> simp [walk] at ha
    | some z =>
      rw [hnext] at ha
      obtain ⟨_, hclosed⟩ := ih (seen ++ [x]) z (hids x hx z hnext) hcard
      rcases hclosed a ha b hab with hb | hb
      · rcases mem_append.1 hb with hb | hb
        · exact .inl hb
        exact .inr (by simp [mem_singleton.1 hb])
      exact .inr (mem_cons_of_mem _ hb)

lemma mem_walk {ids : List α} (hids : ∀ x ∈ ids, ∀ y, next x = some y → y ∈ ids)
    (hfuel : ids.length < fuel) (hx : x ∈ ids) :
    y ∈ walk next fuel [] (some x) ↔ Follows next x y := by
  constructor
  · exact walk_follows fuel [] x y
  intro hxy
  have hcard : (ids.toFinset \ ([] : List α).toFinset).card < fuel := by
    have h := toFinset_card_le ids
    simp
    omega
  obtain ⟨hstart, hclosed⟩ := walk_closed hids fuel [] x hx hcard
  have hx' : x ∈ walk next fuel [] (some x) := by simpa using hstart
  induction hxy with
  | refl => exact hx'
  | tail _ hbc ih => simpa using hclosed _ ih _ hbc

end DeterminFlow.Library
