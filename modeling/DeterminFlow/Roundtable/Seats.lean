/-
  Roundtable.Seats
  **THE SEATS OF A ROUNDTABLE MEETING AND THEIR IDS.**

  Ids are made in two places: a new meeting numbers its seats from zero, and a
  seat that joins later is numbered one above the largest number in use.  A
  configuration may bring an id of its own, which nothing compares with the
  ids that are there.
-/
import DeterminFlow.Library.PyText
import Mathlib.Data.List.Infix
import Mathlib.Data.List.Nodup

namespace DeterminFlow.Roundtable

open Library List

/-! ## Seats -/

inductive SeatStatus where
  | idle
  | speaking
  | thinking
  | done
  deriving DecidableEq

/-- `Seat`; ghost: how many seats the meeting had made before this one. -/
structure Seat where
  seatId : String
  roleName : String
  isModerator : Bool := false
  status : SeatStatus := .idle
  made : Nat
  deriving DecidableEq

/-- The configuration of a seat; a missing entry has its default. -/
structure SeatConfig where
  seatId : Option String := none
  roleName : Option String := none
  isModerator : Bool := false
  deriving DecidableEq

/-- The id `seat-N`. -/
def autoId (number : Int) : String := "seat-" ++ toString number

/-- The number in an id `seat-N`, as `add_seat` reads it back. -/
def seatNumber? (seatId : String) : Option Int :=
  if "seat-".toList <+: seatId.toList then
    PyText.intOf? (String.ofList (seatId.toList.drop 5))
  else none

/-- `max_num`, then one more. -/
def nextNumber (seats : List Seat) : Int :=
  seats.foldl (fun largest seat => ((seatNumber? seat.seatId).map (max largest)).getD largest) (-1)
    + 1

/-- The seat `RoundtableSession.add_seat` makes of a configuration. -/
def newSeat (seats : List Seat) (config : SeatConfig) (made : Nat) : Seat :=
  let number := nextNumber seats
  { seatId := config.seatId.getD (autoId number)
    roleName := config.roleName.getD ("角色" ++ toString (number + 1))
    isModerator := config.isModerator
    made := made }

/-- The loop over the configurations in `RoundtableManager.create`. -/
def createSeatsFrom : Nat → List SeatConfig → List Seat
  | _, [] => []
  | i, config :: rest =>
    { seatId := config.seatId.getD (autoId i)
      roleName := config.roleName.getD ("角色" ++ toString (i + 1))
      isModerator := config.isModerator
      made := i } :: createSeatsFrom (i + 1) rest

def createSeats (configs : List SeatConfig) : List Seat := createSeatsFrom 0 configs

/-- The first seat becomes the moderator when there is none; `none` stands for
the `IndexError` of a meeting without seats. -/
def withModerator (seats : List Seat) : Option (List Seat) :=
  if seats.any (·.isModerator) then some seats
  else
    match seats with
    | [] => none
    | first :: rest => some ({ first with isModerator := true } :: rest)

/-! ## Looking a seat up -/

def getSeat (seats : List Seat) (seatId : String) : Option Seat :=
  seats.find? (·.seatId = seatId)

def getModeratorSeat (seats : List Seat) : Option Seat := seats.find? (·.isModerator)

/-- `get_seat_by_name`: the same name first, then one name within the other,
in lower case. -/
def getSeatByName (lower : String → String) (seats : List Seat) (roleName : String) : Option Seat :=
  (seats.find? (·.roleName = roleName)).or
    (seats.find? (fun seat =>
      (lower roleName).toList <:+: (lower seat.roleName).toList
        ∨ (lower seat.roleName).toList <:+: (lower roleName).toList))

def setStatus (seats : List Seat) (made : Nat) (status : SeatStatus) : List Seat :=
  seats.map (fun seat => if seat.made = made then { seat with status := status } else seat)

/-- `for s in session.seats: s.status = "idle"`. -/
def allIdle (seats : List Seat) : List Seat := seats.map (fun seat => { seat with status := .idle })

def ids (seats : List Seat) : List String := seats.map (·.seatId)

def objects (seats : List Seat) : List Nat := seats.map (·.made)

@[simp] lemma ids_setStatus (seats : List Seat) (made : Nat) (status : SeatStatus) :
    ids (setStatus seats made status) = ids seats := by
  rw [ids, ids, setStatus, map_map]
  apply map_congr_left
  intro seat _
  show (if seat.made = made then { seat with status := status } else seat).seatId = seat.seatId
  split <;> rfl

@[simp] lemma objects_setStatus (seats : List Seat) (made : Nat) (status : SeatStatus) :
    objects (setStatus seats made status) = objects seats := by
  rw [objects, objects, setStatus, map_map]
  apply map_congr_left
  intro seat _
  show (if seat.made = made then { seat with status := status } else seat).made = seat.made
  split <;> rfl

@[simp] lemma ids_allIdle (seats : List Seat) : ids (allIdle seats) = ids seats := by
  rw [ids, allIdle, map_map]
  rfl

@[simp] lemma objects_allIdle (seats : List Seat) : objects (allIdle seats) = objects seats := by
  rw [objects, allIdle, map_map]
  rfl

lemma length_ids (seats : List Seat) : (ids seats).length = seats.length := length_map ..

/-! ## The numbers -/

lemma seatNumber?_autoId (n : Nat) : seatNumber? (autoId n) = some (n : Int) := by
  have hlist : (autoId n).toList = "seat-".toList ++ n.repr.toList := String.toList_append
  rw [seatNumber?, hlist, if_pos (prefix_append _ _)]
  show PyText.intOf? (String.ofList n.repr.toList) = _
  rw [String.ofList_toList, PyText.intOf?_repr]

lemma autoId_injective {n m : Nat} (h : autoId n = autoId m) : n = m := by
  have hnumber := seatNumber?_autoId n
  rw [h, seatNumber?_autoId m] at hnumber
  exact_mod_cast (Option.some.inj hnumber).symm

lemma foldl_numbers (seats : List Seat) (start : Int) : start ≤ seats.foldl (fun largest seat =>
        ((seatNumber? seat.seatId).map (max largest)).getD largest) start
      ∧ ∀ seat ∈ seats, ∀ n, seatNumber? seat.seatId = some n →
        n ≤ seats.foldl (fun largest seat =>
          ((seatNumber? seat.seatId).map (max largest)).getD largest) start := by
  induction seats generalizing start with
  | nil => exact ⟨Int.le_refl _, nofun⟩
  | cons seat rest ih =>
    rw [foldl_cons]
    cases hnumber : seatNumber? seat.seatId with
    | none =>
      refine ⟨(ih start).1, fun other hmem n hn => ?_⟩
      rcases mem_cons.1 hmem with rfl | hrest
      · rw [hnumber] at hn
        cases hn
      exact (ih start).2 other hrest n hn
    | some k =>
      have hstart : start ≤ max start k := Int.le_max_left _ _
      refine ⟨Int.le_trans hstart (ih (max start k)).1, fun other hmem n hn => ?_⟩
      rcases mem_cons.1 hmem with rfl | hrest
      · rw [hnumber] at hn
        obtain rfl := Option.some.inj hn
        exact Int.le_trans (Int.le_max_right _ _) (ih (max start k)).1
      exact (ih (max start k)).2 other hrest n hn

lemma nextNumber_nonneg (seats : List Seat) : 0 ≤ nextNumber seats := by
  have h := (foldl_numbers seats (-1)).1
  rw [nextNumber]
  omega

variable {seats : List Seat} {seat : Seat} {configs : List SeatConfig}

lemma lt_nextNumber (hmem : seat ∈ seats) {n : Int} (hn : seatNumber? seat.seatId = some n) :
    n < nextNumber seats := by
  have h := (foldl_numbers seats (-1)).2 seat hmem n hn
  rw [nextNumber]
  omega

lemma autoId_nextNumber_notMem (seats : List Seat) : autoId (nextNumber seats) ∉ ids seats := by
  intro hmem
  obtain ⟨seat, hseat, hid⟩ := mem_map.1 hmem
  obtain ⟨n, hn⟩ := Int.eq_ofNat_of_zero_le (nextNumber_nonneg seats)
  have hnumber : seatNumber? seat.seatId = some (nextNumber seats) := by
    rw [hid, hn]
    exact seatNumber?_autoId n
  exact absurd (lt_nextNumber hseat hnumber) (Int.lt_irrefl _)

def FreshId (seats : List Seat) (config : SeatConfig) : Prop :=
  ∀ seatId, config.seatId = some seatId → seatId ∉ ids seats

instance (seats : List Seat) (config : SeatConfig) : Decidable (FreshId seats config) :=
  match h : config.seatId with
  | none => .isTrue (fun _ hsome => by rw [h] at hsome; cases hsome)
  | some seatId =>
    decidable_of_iff (seatId ∉ ids seats)
      ⟨fun hnot _ hsome => by rw [h] at hsome; cases hsome; exact hnot,
        fun hall => hall seatId h⟩

lemma newSeat_id_notMem {config : SeatConfig} (h : FreshId seats config) (made : Nat) :
    (newSeat seats config made).seatId ∉ ids seats := by
  cases hid : config.seatId with
  | none =>
    show config.seatId.getD (autoId (nextNumber seats)) ∉ ids seats
    rw [hid]
    exact autoId_nextNumber_notMem seats
  | some seatId =>
    show config.seatId.getD (autoId (nextNumber seats)) ∉ ids seats
    rw [hid]
    exact h seatId hid

lemma nodup_appended (hnodup : (ids seats).Nodup) (h : seat.seatId ∉ ids seats) :
    (ids (seats ++ [seat])).Nodup := by
  rw [ids, map_append]
  apply List.Nodup.append hnodup (nodup_singleton _)
  intro id hid hnew
  have heq : id = seat.seatId := mem_singleton.1 hnew
  exact h (heq ▸ hid)

/-! ## The seats of a new meeting -/

lemma length_createSeatsFrom (configs : List SeatConfig) (i : Nat) :
    (createSeatsFrom i configs).length = configs.length := by
  induction configs generalizing i with
  | nil => rfl
  | cons config rest ih =>
    rw [createSeatsFrom, length_cons, ih, length_cons]

lemma objects_createSeatsFrom (configs : List SeatConfig) (i : Nat) :
    objects (createSeatsFrom i configs) = List.range' i configs.length := by
  induction configs generalizing i with
  | nil => rfl
  | cons config rest ih =>
    show i :: objects (createSeatsFrom (i + 1) rest) = _
    rw [ih, length_cons, range'_succ]

lemma ids_createSeatsFrom (h : ∀ c ∈ configs, c.seatId = none) (i : Nat) :
    ids (createSeatsFrom i configs)
      = (List.range' i configs.length).map (fun n => autoId (n : Nat)) := by
  induction configs generalizing i with
  | nil => rfl
  | cons config rest ih =>
    have hnone : config.seatId = none := h config mem_cons_self
    show config.seatId.getD (autoId i) :: ids (createSeatsFrom (i + 1) rest) = _
    rw [hnone, ih (fun c hc => h c (mem_cons_of_mem _ hc)), length_cons,
      range'_succ]
    rfl

lemma createSeats_ids_nodup (h : ∀ c ∈ configs, c.seatId = none) :
    (ids (createSeats configs)).Nodup := by
  rw [createSeats, ids_createSeatsFrom h]
  exact List.Nodup.map (fun _ _ heq => autoId_injective heq) (nodup_range' ..)

lemma objects_createSeats (configs : List SeatConfig) :
    objects (createSeats configs) = List.range configs.length := by
  rw [createSeats, objects_createSeatsFrom, range_eq_range']

lemma length_createSeats (configs : List SeatConfig) :
    (createSeats configs).length = configs.length := length_createSeatsFrom configs 0

end DeterminFlow.Roundtable
