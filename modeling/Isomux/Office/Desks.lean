import Isomux.Runtime.Text
import Mathlib.Data.Finset.Prod

set_option autoImplicit false

/-!
# Desks and back seats

A room has front desks and, unless it is the lobby, a back room. Both are numbers in one field. The
back room is a square of seats that grows by one ring when all seats of the square are in use.

## Main results

* `Isomux.backSeatOf_eq_some_iff` — numbers from `BACK_SEAT_BASE` up and seats correspond.
* `Isomux.firstFreeBackSeat_spec` — the seat that is found is a free back seat.
* `Isomux.firstFreeBackSeat_innermost` — it is in the smallest square with a free seat, if there is one.
-/

namespace Isomux

/-! ## Rooms -/

inductive RoomType where
  | office
  | lobby
  deriving DecidableEq, Repr

inductive RoomSkin where
  | office
  | hospital
  deriving DecidableEq, Repr

/-- A room, as far as the office state reads it. -/
structure RoomWire where
  type : Option RoomType
  id : String
  name : JsString
  canCloseWhenEmpty : Bool
  skin : Option RoomSkin
  deriving DecidableEq

variable (room : Option RoomWire)

/-- `room?.type === "lobby"`. -/
def isLobby : Bool := room.bind (·.type) = some .lobby

/-! ## Front desks -/

def DESK_SLOTS : List (ℕ × ℕ) :=
  [(0, 0), (0, 1), (1, 0), (1, 1), (2, 0), (2, 1), (3, 0), (3, 1)]

/-- The number of front desks of an ordinary room. -/
def DESK_COUNT : ℕ := DESK_SLOTS.length

/-- A number a caller passes. The numbers that are no integers (fractions, infinities, NaN) are one
case, as they name no place. -/
inductive JsNumber where
  | integer (n : ℤ)
  | notInteger
  deriving DecidableEq, Repr

def roomSlotCount : ℕ := if isLobby room then 1 else DESK_COUNT

/-- Whether the number names a front desk of the room. -/
def isValidDesk (desk : JsNumber) (room : Option RoomWire) : Bool :=
  match desk with
  | .integer n => 0 ≤ n ∧ n < roomSlotCount room
  | .notInteger => false

/-! ## Back seats -/

def BACK_SEAT_BASE : ℕ := 8

def BACK_ROOM_MIN_SIDE : ℕ := 3

def BACK_ROOM_MAX_SIDE : ℕ := 10

def BACK_ROOM_SEATS : ℕ := BACK_ROOM_MAX_SIDE * BACK_ROOM_MAX_SIDE

structure BackSeat where
  table : ℕ
  stool : ℕ
  deriving DecidableEq, Repr

def isBackSeat (desk : ℤ) : Bool :=
  BACK_SEAT_BASE ≤ desk ∧ desk < BACK_SEAT_BASE + BACK_ROOM_SEATS

def backSeatOf (desk : ℤ) : Option BackSeat :=
  if isBackSeat desk then
    let seat := (desk - BACK_SEAT_BASE).toNat
    some ⟨seat / BACK_ROOM_MAX_SIDE, seat % BACK_ROOM_MAX_SIDE⟩
  else none

/-- The number of a seat. The stride is the largest side, so growth renumbers no seat. -/
def deskOfBackSeat (seat : BackSeat) : ℤ :=
  BACK_SEAT_BASE + seat.table * BACK_ROOM_MAX_SIDE + seat.stool

/-- A place an agent can hold in the room: a front desk, or a back seat in any room but the
lobby. -/
def isValidPlacement (desk : ℤ) (room : Option RoomWire) : Bool :=
  isValidDesk (.integer desk) room || (!isLobby room && isBackSeat desk)

def hasBackRoom : Bool := room.isSome && !isLobby room

/-- The side of the square of seats that the back room has now, for the desks in use. -/
def backRoomSide (desks : List ℤ) : ℕ :=
  let seats := desks.filterMap backSeatOf
  let extent := seats.foldl (fun extent seat => max extent (max (seat.table + 1) (seat.stool + 1))) 0
  let side := max BACK_ROOM_MIN_SIDE extent
  if side * side ≤ seats.length ∧ side < BACK_ROOM_MAX_SIDE then side + 1 else side

/-- The seats of a square from the inner ring to the outer one, by table and then by stool. -/
def seatsByRing (side : ℕ) : List BackSeat :=
  (List.range side).flatMap fun ring =>
    (List.range (ring + 1)).flatMap fun table =>
      (List.range (ring + 1)).filterMap fun stool =>
        if max table stool ≠ ring then none else some ⟨table, stool⟩

/-- The first free seat of the smallest square that has one. -/
def firstFreeBackSeat (desks : List ℤ) : Option ℤ :=
  let taken := desks.dedup
  ((seatsByRing (backRoomSide taken)).map deskOfBackSeat).find? (· ∉ taken)

/-! ## The numbering -/

@[simp] lemma isValidDesk_integer {n : ℤ} {room : Option RoomWire} :
    isValidDesk (.integer n) room = true ↔ 0 ≤ n ∧ n < roomSlotCount room := by
  simp [isValidDesk]

@[simp] lemma isBackSeat_iff {desk : ℤ} : isBackSeat desk = true ↔ 8 ≤ desk ∧ desk < 108 := by
  simp only [isBackSeat, decide_eq_true_eq]
  simp [BACK_SEAT_BASE, BACK_ROOM_SEATS, BACK_ROOM_MAX_SIDE]

variable {seat : BackSeat} {desks : List ℤ}

/-- **Numbers and seats correspond**: a number names a seat exactly when it is the number of that
seat and the seat lies in the largest square. -/
theorem backSeatOf_eq_some_iff {desk : ℤ} :
    backSeatOf desk = some seat ↔
      deskOfBackSeat seat = desk ∧ seat.table < BACK_ROOM_MAX_SIDE ∧
        seat.stool < BACK_ROOM_MAX_SIDE := by
  obtain ⟨table, stool⟩ := seat
  simp only [backSeatOf, deskOfBackSeat, BACK_SEAT_BASE, BACK_ROOM_MAX_SIDE,
    Option.ite_none_right_eq_some, isBackSeat_iff, Option.some.injEq, BackSeat.mk.injEq]
  omega

lemma isBackSeat_deskOfBackSeat (htable : seat.table < BACK_ROOM_MAX_SIDE)
    (hstool : seat.stool < BACK_ROOM_MAX_SIDE) : isBackSeat (deskOfBackSeat seat) = true := by
  simp only [BACK_ROOM_MAX_SIDE] at htable hstool
  simp only [isBackSeat_iff, deskOfBackSeat, BACK_SEAT_BASE, BACK_ROOM_MAX_SIDE]
  omega

lemma mem_seatsByRing {side : ℕ} :
    seat ∈ seatsByRing side ↔ seat.table < side ∧ seat.stool < side := by
  obtain ⟨table, stool⟩ := seat
  simp only [seatsByRing, List.mem_flatMap, List.mem_range, List.mem_filterMap,
    Option.ite_none_left_eq_some, Option.some.injEq, BackSeat.mk.injEq, not_not]
  constructor
  · rintro ⟨ring, hring, t, ht, s, hs, -, rfl, rfl⟩
    omega
  · rintro ⟨htable, hstool⟩
    exact ⟨max table stool, by omega, table, by omega, stool, by omega, rfl, rfl, rfl⟩

/-! ## The square of seats -/

lemma foldl_max_le_iff {α : Type*} (f : α → ℕ) (items : List α) (start bound : ℕ) :
    items.foldl (fun extent item => max extent (f item)) start ≤ bound ↔
      start ≤ bound ∧ ∀ item ∈ items, f item ≤ bound := by
  induction items generalizing start with
  | nil => simp
  | cons item items ih =>
    simp only [List.foldl_cons, ih, List.mem_cons, forall_eq_or_imp, max_le_iff, and_assoc]

def seatsInUse (desks : List ℤ) : List BackSeat := desks.filterMap backSeatOf

/-- The square that covers the seats in use. -/
def coveringSide (desks : List ℤ) : ℕ :=
  max BACK_ROOM_MIN_SIDE ((seatsInUse desks).foldl
    (fun extent seat => max extent (max (seat.table + 1) (seat.stool + 1))) 0)

lemma backRoomSide_eq (desks : List ℤ) :
    backRoomSide desks =
      if coveringSide desks * coveringSide desks ≤ (seatsInUse desks).length ∧
          coveringSide desks < BACK_ROOM_MAX_SIDE then coveringSide desks + 1
      else coveringSide desks := rfl

lemma mem_seatsInUse :
    seat ∈ seatsInUse desks ↔
      deskOfBackSeat seat ∈ desks ∧ seat.table < BACK_ROOM_MAX_SIDE ∧
        seat.stool < BACK_ROOM_MAX_SIDE := by
  simp only [seatsInUse, List.mem_filterMap, backSeatOf_eq_some_iff]
  constructor
  · rintro ⟨desk, hdesk, rfl, hseat⟩
    exact ⟨hdesk, hseat⟩
  · rintro ⟨hdesk, hseat⟩
    exact ⟨_, hdesk, rfl, hseat⟩

lemma coveringSide_le (desks : List ℤ) : coveringSide desks ≤ BACK_ROOM_MAX_SIDE := by
  refine Nat.max_le.2 ⟨by decide, (foldl_max_le_iff _ _ _ _).2 ⟨Nat.zero_le _, ?_⟩⟩
  intro seat hseat
  obtain ⟨-, htable, hstool⟩ := mem_seatsInUse.1 hseat
  omega

lemma backRoomSide_le (desks : List ℤ) : backRoomSide desks ≤ BACK_ROOM_MAX_SIDE := by
  have hle := coveringSide_le desks
  rw [backRoomSide_eq]
  split_ifs with hfull <;> omega

/-- **The seat that is found** is a back seat that no desk in use names. -/
theorem firstFreeBackSeat_spec {desk : ℤ}
    (h : firstFreeBackSeat desks = some desk) : isBackSeat desk = true ∧ desk ∉ desks := by
  have hfree := List.find?_some h
  have hmem := List.mem_of_find?_eq_some h
  obtain ⟨seat, hseat, rfl⟩ := List.mem_map.1 hmem
  have hside := backRoomSide_le desks.dedup
  obtain ⟨htable, hstool⟩ := mem_seatsByRing.1 hseat
  exact ⟨isBackSeat_deskOfBackSeat (by omega) (by omega), by simpa using hfree⟩

/-! ## Rings -/

/-- The ring of a seat: the square of this side is the smallest one that it is not in. -/
def BackSeat.ring (seat : BackSeat) : ℕ := max seat.table seat.stool

lemma pairwise_seatsByRing (side : ℕ) : (seatsByRing side).Pairwise fun a b => a.ring ≤ b.ring := by
  have hring : ∀ ring, ∀ seat ∈ (List.range (ring + 1)).flatMap fun table =>
      (List.range (ring + 1)).filterMap fun stool =>
        if max table stool ≠ ring then none else some (⟨table, stool⟩ : BackSeat),
      seat.ring = ring := by
    intro ring seat hseat
    simp only [List.mem_flatMap, List.mem_filterMap, Option.ite_none_left_eq_some,
      Option.some.injEq, not_not] at hseat
    obtain ⟨table, -, stool, -, hmax, rfl⟩ := hseat
    exact hmax
  refine List.pairwise_flatMap.2 ⟨fun ring _ => List.pairwise_of_forall_mem_list ?_, ?_⟩
  · intro a ha b hb
    rw [hring ring a ha, hring ring b hb]
  · refine List.pairwise_lt_range.imp fun hlt a ha b hb => ?_
    rw [hring _ a ha, hring _ b hb]
    exact hlt.le

/-- A square all of whose seats are in use has as many seats in use as it has seats. -/
lemma mul_self_le_length {side : ℕ} (hside : side ≤ BACK_ROOM_MAX_SIDE)
    (hfull : ∀ seat ∈ seatsByRing side, deskOfBackSeat seat ∈ desks) :
    side * side ≤ (seatsInUse desks).length := by
  have hsub : Finset.range side ×ˢ Finset.range side ⊆
      ((seatsInUse desks).map fun seat => (seat.table, seat.stool)).toFinset := by
    rintro ⟨table, stool⟩ hmem
    obtain ⟨htable, hstool⟩ := Finset.mem_product.1 hmem
    rw [Finset.mem_range] at htable hstool
    have hseat := hfull ⟨table, stool⟩ (mem_seatsByRing.2 ⟨htable, hstool⟩)
    exact List.mem_toFinset.2 (List.mem_map.2 ⟨⟨table, stool⟩,
      mem_seatsInUse.2 ⟨hseat, htable.trans_le hside, hstool.trans_le hside⟩, rfl⟩)
  have hcard := Finset.card_le_card hsub
  rw [Finset.card_product, Finset.card_range] at hcard
  exact hcard.trans ((List.toFinset_card_le _).trans_eq (List.length_map _))

/-- The square of the back room has a free seat until the largest one is full. -/
lemma backRoomSide_of_full
    (hfull : ∀ seat ∈ seatsByRing (backRoomSide desks), deskOfBackSeat seat ∈ desks) :
    backRoomSide desks = BACK_ROOM_MAX_SIDE := by
  have hlarge := backRoomSide_le desks
  have hlength := mul_self_le_length hlarge hfull
  rw [backRoomSide_eq] at hfull hlarge hlength ⊢
  split_ifs at hfull hlarge hlength ⊢ with hgrown
  · -- the new ring is in use, and yet the covering square ends in front of it
    have hcorner := hfull ⟨coveringSide desks, 0⟩ (mem_seatsByRing.2 ⟨by simp, by simp⟩)
    have hcovers := (foldl_max_le_iff (fun seat : BackSeat => max (seat.table + 1) (seat.stool + 1))
      _ _ _).1 (le_max_right BACK_ROOM_MIN_SIDE _ : _ ≤ coveringSide desks)
    have hin : coveringSide desks + 1 ≤ coveringSide desks := (le_max_left _ _).trans
      (hcovers.2 _ (mem_seatsInUse.2 ⟨hcorner, hgrown.2, (Nat.zero_le _).trans_lt hgrown.2⟩))
    omega
  · exact le_antisymm hlarge (not_lt.1 fun hlt => hgrown ⟨hlength, hlt⟩)

/-- **The smallest square with a free seat.** No seat is found only if all of them are taken, and a
seat that is found is a free back seat that is in no larger ring than any other. -/
theorem firstFreeBackSeat_innermost (desks : List ℤ) :
    match firstFreeBackSeat desks with
    | none => ∀ desk, isBackSeat desk = true → desk ∈ desks
    | some desk => desk ∉ desks ∧ ∃ seat, backSeatOf desk = some seat ∧
        ∀ free other, free ∉ desks → backSeatOf free = some other → seat.ring ≤ other.ring := by
  have hside := backRoomSide_le desks.dedup
  split
  · rename_i hnone
    have hfull : ∀ seat ∈ seatsByRing (backRoomSide desks.dedup), deskOfBackSeat seat ∈ desks.dedup := by
      intro seat hseat
      have htaken := List.find?_eq_none.1 hnone _ (List.mem_map_of_mem hseat)
      simpa using htaken
    intro desk hdesk
    obtain ⟨seat, hseat⟩ : ∃ seat, backSeatOf desk = some seat := ⟨_, if_pos hdesk⟩
    obtain ⟨rfl, htable, hstool⟩ := backSeatOf_eq_some_iff.1 hseat
    rw [backRoomSide_of_full hfull] at hfull
    exact List.mem_dedup.1 (hfull seat (mem_seatsByRing.2 ⟨htable, hstool⟩))
  · rename_i desk hsome
    obtain ⟨-, hfree⟩ := firstFreeBackSeat_spec hsome
    obtain ⟨-, before, after, hsplit, hbefore⟩ := List.find?_eq_some_iff_append.1 hsome
    obtain ⟨front, back, hseats, hfront, hback⟩ := List.map_eq_append_iff.1 hsplit
    obtain ⟨seat, rest, rfl, rfl, -⟩ := List.map_eq_cons_iff.1 hback
    have hpairwise := pairwise_seatsByRing (backRoomSide desks.dedup)
    rw [hseats] at hpairwise
    have hmem : seat ∈ seatsByRing (backRoomSide desks.dedup) := hseats ▸ by simp
    obtain ⟨htable, hstool⟩ := mem_seatsByRing.1 hmem
    refine ⟨hfree, seat, backSeatOf_eq_some_iff.2 ⟨rfl, by omega, by omega⟩, ?_⟩
    intro free other hother heq
    obtain ⟨rfl, -, -⟩ := backSeatOf_eq_some_iff.1 heq
    by_cases hin : other ∈ seatsByRing (backRoomSide desks.dedup)
    · rw [hseats] at hin
      rcases List.mem_append.1 hin with hin | hin
      · have htaken := hbefore _ (hfront ▸ List.mem_map_of_mem hin)
        simp [hother] at htaken
      · rcases List.mem_cons.1 hin with rfl | hin
        · exact le_rfl
        · exact (List.pairwise_cons.1 (List.pairwise_append.1 hpairwise).2.1).1 other hin
    · rw [mem_seatsByRing] at hin
      unfold BackSeat.ring
      omega

end Isomux
