/-
`blink.S`, with the allocator of `fish.c`: characters that blink on the screen.

The records stand in one array, `blink_array`, and are linked through their last field. A record is
free for `mp1_malloc` when its `location` is 0, and that is also a location that can be added. As long
as nobody does, the array and its links are nothing but a list of at most 2000 records, and every walk
along the links ends. A record at location 0 is handed out again at the next call, is linked to itself
then, and no walk ends any more.

The routines are given as functions of the array, with the registers they keep a pointer in as
variables. Pointers to records are indices, and `vmem` is the memory from `vmem_base_addr` on.
-/
import LinuxLikeOS.LinkedSlots
import Mathlib.Data.Finset.Card
import Mathlib.Data.Finset.Range
import Mathlib.Data.Nat.Notation

set_option autoImplicit false

namespace LinuxLikeOS

open LinkedSlots

/-! ## The records -/

/-- A record but for its link. -/
structure Blink where
  location : BitVec 16
  on_char : UInt8
  off_char : UInt8
  on_length : BitVec 16
  off_length : BitVec 16
  countdown : BitVec 16
  status : BitVec 16
  deriving DecidableEq

structure mp1_blink_struct extends Blink where
  next : Option ℕ

/-- The number of records, and of the cells of the screen. -/
def BLINKS : ℕ := 80 * 25

/-- The variables of the program. -/
structure Blinkers where
  blink_array : ℕ → mp1_blink_struct
  mp1_list_head : Option ℕ
  vmem : ℕ → UInt8

namespace Blinkers

/-- Assignment to fields of a record. -/
def set (i : ℕ) (g : mp1_blink_struct → mp1_blink_struct) (f : Blinkers) : Blinkers :=
  { f with blink_array := Function.update f.blink_array i (g (f.blink_array i)) }

def next (f : Blinkers) (i : ℕ) : Option ℕ := (f.blink_array i).next

/-- A pointer is stored at a place. -/
def store (p : Place ℕ) (ptr : Option ℕ) (f : Blinkers) : Blinkers :=
  match p with
  | .head => { f with mp1_list_head := ptr }
  | .slot i => f.set i fun b => { b with next := ptr }

/-- The record without its link. -/
def fields (f : Blinkers) (i : ℕ) : Blink := (f.blink_array i).toBlink

end Blinkers

/-- Memory after `ece391_memset`. -/
def blank_blink : mp1_blink_struct := ⟨⟨0, 0, 0, 0, 0, 0, 0⟩, none⟩

/-! ## The allocator -/

def mp1_malloc (f : Blinkers) : Option ℕ :=
  (List.range BLINKS).find? fun i => (f.blink_array i).location = 0

def mp1_free (i : ℕ) (f : Blinkers) : Blinkers := f.set i fun _ => blank_blink

/-! ## `blink.S` -/

/-- A byte at an offset of video memory. -/
def mp1_poke (eax : ℕ) (cl : UInt8) (f : Blinkers) : Blinkers :=
  { f with vmem := Function.update f.vmem eax cl }

/-- The first record with the location. -/
def mp1_find_helper (fuel : ℕ) (ax : BitVec 16) (f : Blinkers) : Option (Option ℕ) :=
  find f.next (fun ebx => (f.blink_array ebx).location = ax) fuel f.mp1_list_head

/-- The argument is the structure that the pointer leads to. -/
def mp1_ioctl_add (user : mp1_blink_struct) (f : Blinkers) : Int × Blinkers :=
  if user.location.toNat ≥ 80 * 25 then (-1, f)
  else
    let temp := { user with status := 1, countdown := user.on_length }
    match mp1_malloc f with
    | none => (-1, f)
    | some edx =>
        -- the link comes with the structure, and is overwritten
        let f := f.set edx fun _ => temp
        let f := f.set edx fun b => { b with next := f.mp1_list_head }
        let f := { f with mp1_list_head := some edx }
        let b := f.blink_array edx
        (0, mp1_poke (2 * b.location.toNat) b.on_char f)

def mp1_ioctl_remove (fuel : ℕ) (arg : BitVec 32) (f : Blinkers) : Option (Int × Blinkers) :=
  (mp1_find_helper fuel (arg.setWidth 16) f).bind fun
    | none => some (-1, f)
    | some eax =>
        (find_place f.mp1_list_head f.next eax fuel .head).map fun edx =>
          (0, mp1_free eax (f.store edx (f.blink_array eax).next))

/-- The lengths and the phase of the record at `esi`, for the one at `edi`. -/
def Blink.sync (esi edi : Blink) : Blink :=
  { edi with
    on_length := esi.on_length, off_length := esi.off_length
    countdown := esi.countdown, status := esi.status }

def mp1_ioctl_sync (fuel : ℕ) (arg : BitVec 32) (f : Blinkers) : Option (Int × Blinkers) :=
  (mp1_find_helper fuel ((arg >>> 16).setWidth 16) f).bind fun
    | none => some (-1, f)
    | some esi =>
        (mp1_find_helper fuel (arg.setWidth 16) f).bind fun
          | none => some (-1, f)
          | some edi =>
              let f := f.set edi fun b => { b with toBlink := (f.fields esi).sync b.toBlink }
              let b := f.blink_array edi
              -- `cmovl` asks for "less": the sign of `1 & status`, where no overflow is
              let less := (1#8 &&& b.status.setWidth 8).msb
              some (0, mp1_poke (2 * b.location.toNat) (if less then b.on_char else b.off_char) f)

/-- The structure is what is copied to the caller. -/
def mp1_ioctl_find (fuel : ℕ) (location : BitVec 16) (f : Blinkers) :
    Option (Int × Option mp1_blink_struct) :=
  (mp1_find_helper fuel location f).map fun
    | none => (-1, none)
    | some eax => (0, some (f.blink_array eax))

/-- The body of `tasklet_loop`. -/
def tasklet_item (ebx : ℕ) (f : Blinkers) : Blinkers :=
  let f := f.set ebx fun b => { b with countdown := b.countdown - 1 }
  let b := f.blink_array ebx
  -- with its sign, so that one above 32767 is over as well
  if 0 < b.countdown.toInt then f
  else if b.status &&& 1 = 0 then
    let f := mp1_poke (2 * b.location.toNat) b.on_char f
    f.set ebx fun b => { b with countdown := b.on_length, status := b.status ^^^ 1 }
  else
    let f := mp1_poke (2 * b.location.toNat) b.off_char f
    f.set ebx fun b => { b with countdown := b.off_length, status := b.status ^^^ 1 }

def mp1_rtc_tasklet (fuel : ℕ) (f : Blinkers) : Option Blinkers :=
  for_each Blinkers.next tasklet_item fuel f.mp1_list_head f

/-- The commands, with their arguments. -/
inductive BlinkCommand
  | RTC_ADD (user : mp1_blink_struct)
  | RTC_REMOVE (arg : BitVec 32)
  | RTC_FIND (location : BitVec 16)
  | RTC_SYNC (arg : BitVec 32)

/-- The value returned, the structure copied to the caller, and the variables behind the call. -/
def mp1_ioctl (fuel : ℕ) (f : Blinkers) :
    BlinkCommand → Option ((Int × Option mp1_blink_struct) × Blinkers)
  | .RTC_ADD user => let (value, f) := mp1_ioctl_add user f; some ((value, none), f)
  | .RTC_REMOVE arg => (mp1_ioctl_remove fuel arg f).map fun (value, f) => ((value, none), f)
  | .RTC_FIND location => (mp1_ioctl_find fuel location f).map fun answer => (answer, f)
  | .RTC_SYNC arg => (mp1_ioctl_sync fuel arg f).map fun (value, f) => ((value, none), f)

/-! ## The list it stands for -/

/-- The records in the order they are linked, and what the screen shows. -/
structure Listing where
  blinks : List Blink
  screen : ℕ → UInt8

/-- A record that is added. -/
def Blink.begin (user : Blink) : Blink := { user with status := 1, countdown := user.on_length }

/-- A tick for one record. -/
def Blink.tick (b : Blink) : Blink :=
  if 0 < (b.countdown - 1).toInt then { b with countdown := b.countdown - 1 }
  else if b.status &&& 1 = 0 then { b with countdown := b.on_length, status := b.status ^^^ 1 }
  else { b with countdown := b.off_length, status := b.status ^^^ 1 }

/-- What the tick draws. -/
def Blink.draw (b : Blink) (screen : ℕ → UInt8) : ℕ → UInt8 :=
  if 0 < (b.countdown - 1).toInt then screen
  else Function.update screen (2 * b.location.toNat)
    (if b.status &&& 1 = 0 then b.on_char else b.off_char)

/-- The test for a location. -/
def Blink.at (location : BitVec 16) (b : Blink) : Bool := b.location = location

namespace Listing

def add (user : Blink) (w : Listing) : Int × Listing :=
  if user.location.toNat ≥ BLINKS ∨ w.blinks.length ≥ BLINKS then (-1, w)
  else (0,
    { blinks := user.begin :: w.blinks
      screen := Function.update w.screen (2 * user.location.toNat) user.on_char })

def remove (location : BitVec 16) (w : Listing) : Int × Listing :=
  match w.blinks.find? (Blink.at location) with
  | none => (-1, w)
  | some _ => (0, { w with blinks := w.blinks.eraseP (Blink.at location) })

def sync (source target : BitVec 16) (w : Listing) : Int × Listing :=
  match w.blinks.find? (Blink.at source), w.blinks.find? (Blink.at target) with
  | some esi, some edi => (0,
      { blinks := on_first (Blink.at target) esi.sync w.blinks
        -- whatever the record's phase is
        screen := Function.update w.screen (2 * edi.location.toNat) edi.off_char })
  | _, _ => (-1, w)

def tasklet (w : Listing) : Listing where
  blinks := w.blinks.map Blink.tick
  screen := w.blinks.foldl (fun screen b => b.draw screen) w.screen

end Listing

/-- The variables are those of a list, in these records. -/
structure Listed (f : Blinkers) (slots : List ℕ) (w : Listing) : Prop where
  linked : Linked f.next f.mp1_list_head slots
  nodup : slots.Nodup
  used : ∀ i, i ∈ slots ↔ i < BLINKS ∧ (f.blink_array i).location ≠ 0
  blinks : w.blinks = slots.map f.fields
  screen : w.screen = f.vmem

section

variable {f : Blinkers} {slots : List ℕ} {w : Listing} {i fuel : ℕ}

/-! ## What the routines find -/

theorem Listed.length (h : Listed f slots w) : w.blinks.length = slots.length := by
  rw [h.blinks, List.length_map]

theorem Listed.length_le (h : Listed f slots w) : slots.length ≤ BLINKS := by
  rw [← List.toFinset_card_of_nodup h.nodup, ← Finset.card_range BLINKS]
  apply Finset.card_le_card
  intro i hi
  rw [Finset.mem_range]
  exact ((h.used i).mp (List.mem_toFinset.mp hi)).1

/-- **A record can be had until the list is full.** -/
theorem Listed.malloc_eq_none (h : Listed f slots w) :
    mp1_malloc f = none ↔ w.blinks.length ≥ BLINKS := by
  have hall : mp1_malloc f = none ↔ ∀ i < BLINKS, i ∈ slots := by
    unfold mp1_malloc
    rw [List.find?_eq_none]
    constructor
    · intro hnone i hi
      have hloc := hnone i (List.mem_range.mpr hi)
      rw [decide_eq_true_eq] at hloc
      exact (h.used i).mpr ⟨hi, hloc⟩
    · intro hall i hi
      rw [decide_eq_true_eq]
      exact ((h.used i).mp (hall i (List.mem_range.mp hi))).2
  rw [hall, h.length]
  constructor
  · intro hmem
    rw [← List.toFinset_card_of_nodup h.nodup, ← Finset.card_range BLINKS]
    apply Finset.card_le_card
    intro i hi
    exact List.mem_toFinset.mpr (hmem i (Finset.mem_range.mp hi))
  · intro hfull
    -- as many slots as the array has are all that it has
    have hsub : slots.toFinset ⊆ Finset.range BLINKS := by
      intro i hi
      exact Finset.mem_range.mpr ((h.used i).mp (List.mem_toFinset.mp hi)).1
    have heq := Finset.eq_of_subset_of_card_le hsub (by
      rw [List.toFinset_card_of_nodup h.nodup, Finset.card_range]
      exact hfull)
    intro i hi
    rw [← List.mem_toFinset, heq]
    exact Finset.mem_range.mpr hi

theorem Listed.malloc_eq_some (h : Listed f slots w) (hi : mp1_malloc f = some i) :
    i < BLINKS ∧ i ∉ slots := by
  have hmem := List.mem_range.mp (List.mem_of_find?_eq_some hi)
  have hloc := List.find?_some hi
  rw [decide_eq_true_eq] at hloc
  exact ⟨hmem, fun hused => ((h.used i).mp hused).2 hloc⟩

/-- **A search ends**, and finds the first record of the list with the location. -/
theorem Listed.find_helper (h : Listed f slots w) (hfuel : BLINKS < fuel) (location : BitVec 16) :
    ∃ found, mp1_find_helper fuel location f = some found ∧
      slots.find? (fun i => (f.fields i).at location) = found ∧
      w.blinks.find? (Blink.at location) = found.map f.fields := by
  refine ⟨_, find_eq h.linked (Nat.lt_of_le_of_lt h.length_le hfuel), rfl, ?_⟩
  rw [h.blinks, List.find?_map]
  rfl

/-! ## The routines on the list -/

theorem mp1_ioctl_add_some {user : mp1_blink_struct} (hlt : user.location.toNat < BLINKS)
    (hi : mp1_malloc f = some i) : mp1_ioctl_add user f = (0,
      { blink_array := Function.update f.blink_array i ⟨user.toBlink.begin, f.mp1_list_head⟩
        mp1_list_head := some i
        vmem := Function.update f.vmem (2 * user.location.toNat) user.on_char }) := by
  have hcells : 80 * 25 = BLINKS := rfl
  unfold mp1_ioctl_add
  rw [hcells, if_neg (Nat.not_le.mpr hlt), hi]
  dsimp only [mp1_poke, Blinkers.set]
  rw [Function.update_self, Function.update_idem, Function.update_self]
  rfl

/-- A free record is filled and linked in front. -/
theorem Listed.push (h : Listed f slots w) (hi : i < BLINKS) (hnew : i ∉ slots) {b : Blink}
    (hloc : b.location ≠ 0) (screen : ℕ → UInt8) :
    Listed ⟨Function.update f.blink_array i ⟨b, f.mp1_list_head⟩, some i, screen⟩ (i :: slots)
      ⟨b :: w.blinks, screen⟩ where
  linked := by
    apply h.linked.push
    · unfold Blinkers.next
      dsimp only
      rw [Function.update_self]
    · intro j hj
      unfold Blinkers.next
      dsimp only
      rw [Function.update_of_ne (ne_of_mem_of_not_mem hj hnew)]
  nodup := List.nodup_cons.mpr ⟨hnew, h.nodup⟩
  used j := by
    rw [List.mem_cons, h.used j]
    dsimp only
    by_cases hj : j = i
    · subst hj
      rw [Function.update_self]
      exact iff_of_true (Or.inl rfl) ⟨hi, hloc⟩
    · rw [Function.update_of_ne hj]
      exact or_iff_right hj
  blinks := by
    rw [List.map_cons, h.blinks]
    unfold Blinkers.fields
    dsimp only
    rw [Function.update_self]
    congr 1
    apply List.map_congr_left
    intro j hj
    rw [Function.update_of_ne (ne_of_mem_of_not_mem hj hnew)]
  screen := rfl

/-- **A record is added** in front. -/
theorem Listed.add (h : Listed f slots w) {user : mp1_blink_struct} (hloc : user.location ≠ 0) :
    ∃ slots', Listed (mp1_ioctl_add user f).2 slots' (w.add user.toBlink).2 ∧
      (mp1_ioctl_add user f).1 = (w.add user.toBlink).1 := by
  have hcells : 80 * 25 = BLINKS := rfl
  -- either way of refusing leaves everything as it is
  have hrefused (hor : user.location.toNat ≥ BLINKS ∨ w.blinks.length ≥ BLINKS)
      (hcode : mp1_ioctl_add user f = (-1, f)) :
      ∃ slots', Listed (mp1_ioctl_add user f).2 slots' (w.add user.toBlink).2 ∧
        (mp1_ioctl_add user f).1 = (w.add user.toBlink).1 := by
    have hlist : w.add user.toBlink = (-1, w) := if_pos hor
    rw [hcode, hlist]
    exact ⟨slots, h, rfl⟩
  by_cases hlt : user.location.toNat ≥ BLINKS
  · apply hrefused (Or.inl hlt)
    unfold mp1_ioctl_add
    rw [hcells, if_pos hlt]
  · cases hmalloc : mp1_malloc f with
    | none =>
        apply hrefused (Or.inr (h.malloc_eq_none.mp hmalloc))
        unfold mp1_ioctl_add
        rw [hcells, if_neg hlt, hmalloc]
    | some i =>
        obtain ⟨hi, hnew⟩ := h.malloc_eq_some hmalloc
        have hroom : ¬ w.blinks.length ≥ BLINKS := by
          rw [← h.malloc_eq_none, hmalloc]
          exact Option.some_ne_none i
        have hlist : w.add user.toBlink = (0,
            { blinks := user.toBlink.begin :: w.blinks
              screen := Function.update w.screen (2 * user.location.toNat) user.on_char }) :=
          if_neg (by rw [not_or]; exact ⟨hlt, hroom⟩)
        rw [mp1_ioctl_add_some (Nat.not_le.mp hlt) hmalloc, hlist, h.screen]
        exact ⟨i :: slots, h.push (b := user.toBlink.begin) hi hnew hloc _, rfl⟩

theorem load_store (p q : Place ℕ) (ptr : Option ℕ) :
    q.load (f.store p ptr).mp1_list_head (f.store p ptr).next
      = if q = p then ptr else q.load f.mp1_list_head f.next := by
  cases p with
  | head =>
      cases q with
      | head => exact (if_pos rfl).symm
      | slot j => exact (if_neg nofun).symm
  | slot i =>
      cases q with
      | head => exact (if_neg nofun).symm
      | slot j =>
          unfold Place.load Blinkers.store Blinkers.set Blinkers.next
          dsimp only
          by_cases hj : j = i
          · subst hj
            rw [Function.update_self, if_pos rfl]
          · rw [Function.update_of_ne hj, if_neg fun h => hj (Place.slot.inj h)]

theorem fields_store (p : Place ℕ) (ptr : Option ℕ) (j : ℕ) :
    (f.store p ptr).fields j = f.fields j := by
  cases p with
  | head => rfl
  | slot i =>
      unfold Blinkers.store Blinkers.set Blinkers.fields
      dsimp only
      by_cases hj : j = i
      · subst hj
        rw [Function.update_self]
      · rw [Function.update_of_ne hj]

theorem blink_array_free {a j : ℕ} (hj : j ≠ a) : (mp1_free a f).blink_array j = f.blink_array j :=
  Function.update_of_ne hj _ _

/-- A record is taken out and cleared. -/
theorem Listed.unlink {a : ℕ} {xs ys : List ℕ} (h : Listed f (xs ++ a :: ys) w) :
    Listed (mp1_free a (f.store (behind .head xs) (f.next a))) (xs ++ ys)
      { w with blinks := (xs ++ ys).map f.fields } := by
  have hsub : ∀ j ∈ xs ++ ys, j ∈ xs ++ a :: ys ∧ j ≠ a := by
    intro j hj
    have hnodup := List.nodup_middle.mp h.nodup
    refine ⟨?_, ne_of_mem_of_not_mem hj (List.nodup_cons.mp hnodup).1⟩
    rw [List.mem_append, List.mem_cons]
    rcases List.mem_append.mp hj with hj | hj
    · exact Or.inl hj
    · exact Or.inr (Or.inr hj)
  have hfields : ∀ j, j ≠ a →
      (mp1_free a (f.store (behind .head xs) (f.next a))).fields j = f.fields j := by
    intro j hj
    rw [← fields_store (f := f) (behind .head xs) (f.next a) j]
    unfold Blinkers.fields
    rw [blink_array_free hj]
  refine ⟨?_, ?_, fun j => ?_, ?_, ?_⟩
  · have hlinked : Linked (f.store (behind .head xs) (f.next a)).next
        (f.store (behind .head xs) (f.next a)).mp1_list_head (xs ++ ys) := by
      apply Linked.unlink (p := .head) h.linked h.nodup
      · exact nofun
      · rw [load_store, if_pos rfl]
      · intro q hq _
        rw [load_store, if_neg hq]
    refine hlinked.congr fun j hj => ?_
    unfold Blinkers.next
    rw [blink_array_free (hsub j hj).2]
  · exact (List.nodup_cons.mp (List.nodup_middle.mp h.nodup)).2
  · by_cases hj : j = a
    · subst hj
      refine iff_of_false (fun hmem => (hsub j hmem).2 rfl) fun hloc => hloc.2 ?_
      unfold mp1_free Blinkers.set
      dsimp only
      rw [Function.update_self]
      rfl
    · have hmem : j ∈ xs ++ ys ↔ j ∈ xs ++ a :: ys := by
        rw [List.mem_append, List.mem_append, List.mem_cons, or_iff_right hj]
      rw [hmem, h.used j]
      have hloc := congrArg Blink.location (hfields j hj)
      unfold Blinkers.fields at hloc
      rw [hloc]
  · apply List.map_congr_left
    intro j hj
    exact (hfields j (hsub j hj).2).symm
  · rw [h.screen]
    cases hbehind : behind (Place.head (α := ℕ)) xs with
    | head => rfl
    | slot i => rfl

/-- **A record is removed**, the first one with the location. -/
theorem Listed.remove (h : Listed f slots w) (hfuel : BLINKS < fuel) (arg : BitVec 32) :
    ∃ value f' slots', mp1_ioctl_remove fuel arg f = some (value, f') ∧
      Listed f' slots' (w.remove (arg.setWidth 16)).2 ∧ value = (w.remove (arg.setWidth 16)).1 := by
  obtain ⟨found, hfind, hslots, hlist⟩ := h.find_helper hfuel (arg.setWidth 16)
  unfold mp1_ioctl_remove Listing.remove
  rw [hfind, Option.bind_some, hlist]
  cases found with
  | none => exact ⟨-1, f, slots, rfl, h, rfl⟩
  | some a =>
      obtain ⟨hp, xs, ys, rfl, hxs⟩ := List.find?_eq_some_iff_append.mp hslots
      have hlen := h.length_le
      rw [List.length_append] at hlen
      have hnew : a ∉ xs := by
        intro ha
        have hnodup := (List.nodup_cons.mp (List.nodup_middle.mp h.nodup)).1
        exact hnodup (List.mem_append_left ys ha)
      have hplace : find_place f.mp1_list_head f.next a fuel .head = some (behind .head xs) :=
        find_place_eq h.linked hnew (by omega)
      have herase : (xs ++ ys).map f.fields = w.blinks.eraseP (Blink.at (arg.setWidth 16)) := by
        rw [h.blinks]
        apply map_of_find hp
        intro i hi
        have hno := hxs i hi
        rwa [Bool.not_eq_true'] at hno
      rw [← herase]
      dsimp only
      rw [hplace]
      exact ⟨0, _, _, rfl, h.unlink, rfl⟩

/-- The links and the locations are the same. -/
structure SameLinks (f f' : Blinkers) : Prop where
  head : f'.mp1_list_head = f.mp1_list_head
  next : f'.next = f.next
  location : ∀ i, (f'.fields i).location = (f.fields i).location

theorem Listed.same (h : Listed f slots w) {f' : Blinkers} (hsame : SameLinks f f') :
    Listed f' slots ⟨slots.map f'.fields, f'.vmem⟩ where
  linked := by
    rw [hsame.next, hsame.head]
    exact h.linked
  nodup := h.nodup
  used i := by
    have hloc := hsame.location i
    unfold Blinkers.fields at hloc
    rw [h.used i, hloc]
  blinks := rfl
  screen := rfl

/-- The fields of one record are changed. -/
def Blinkers.change (i : ℕ) (b : Blink) (screen : ℕ → UInt8) (f : Blinkers) : Blinkers :=
  { f.set i (fun s => { s with toBlink := b }) with vmem := screen }

theorem fields_change (i : ℕ) (b : Blink) (screen : ℕ → UInt8) :
    (f.change i b screen).fields = Function.update f.fields i b := by
  funext j
  unfold Blinkers.fields Blinkers.change Blinkers.set
  dsimp only
  by_cases hj : j = i
  · subst hj
    rw [Function.update_self, Function.update_self]
  · rw [Function.update_of_ne hj, Function.update_of_ne hj]

theorem sameLinks_change {b : Blink} (hloc : b.location = (f.fields i).location)
    (screen : ℕ → UInt8) : SameLinks f (f.change i b screen) where
  head := rfl
  next := by
    funext j
    unfold Blinkers.next Blinkers.change Blinkers.set
    dsimp only
    by_cases hj : j = i
    · subst hj
      rw [Function.update_self]
    · rw [Function.update_of_ne hj]
  location j := by
    rw [fields_change]
    by_cases hj : j = i
    · subst hj
      rw [Function.update_self, hloc]
    · rw [Function.update_of_ne hj]

/-- "Less" is never what `testb $0x1` leaves. -/
theorem testb_not_less (status : BitVec 16) : (1#8 &&& status.setWidth 8).msb = false := by
  rw [BitVec.msb_and]
  rfl

/-- **Two records are synchronized**, and the target's `off_char` is drawn. -/
theorem Listed.sync (h : Listed f slots w) (hfuel : BLINKS < fuel) (arg : BitVec 32) :
    ∃ value f', mp1_ioctl_sync fuel arg f = some (value, f') ∧
      Listed f' slots (w.sync ((arg >>> 16).setWidth 16) (arg.setWidth 16)).2 ∧
      value = (w.sync ((arg >>> 16).setWidth 16) (arg.setWidth 16)).1 := by
  obtain ⟨source, hsource, -, hlist⟩ := h.find_helper hfuel ((arg >>> 16).setWidth 16)
  obtain ⟨target, htarget, hslots, hlist'⟩ := h.find_helper hfuel (arg.setWidth 16)
  unfold mp1_ioctl_sync Listing.sync
  rw [hsource, Option.bind_some, hlist]
  cases source with
  | none => exact ⟨-1, f, rfl, h, rfl⟩
  | some esi =>
      dsimp only
      rw [htarget, Option.bind_some, hlist']
      cases target with
      | none => exact ⟨-1, f, rfl, h, rfl⟩
      | some edi =>
          have hfirst := map_update_of_find (g := (f.fields esi).sync) h.nodup hslots
          rw [h.blinks, Option.map_some, Option.map_some]
          dsimp only
          rw [← hfirst, h.screen, testb_not_less, if_neg Bool.false_ne_true]
          refine ⟨_, _, rfl, ?_, rfl⟩
          have hsame := h.same (sameLinks_change (b := (f.fields esi).sync (f.fields edi)) rfl
            (Function.update f.vmem (2 * (f.fields edi).location.toNat) (f.fields edi).off_char))
          rw [fields_change] at hsame
          unfold mp1_poke Blinkers.set
          dsimp only
          rw [Function.update_self]
          exact hsame

/-- The body of the tasklet's loop. -/
theorem tasklet_item_eq (ebx : ℕ) (f : Blinkers) : tasklet_item ebx f
    = f.change ebx (f.fields ebx).tick ((f.fields ebx).draw f.vmem) := by
  unfold tasklet_item Blinkers.change Blink.tick Blink.draw Blinkers.fields Blinkers.set mp1_poke
  dsimp only
  simp only [Function.update_self, Function.update_idem]
  by_cases hpos : 0 < ((f.blink_array ebx).countdown - 1).toInt
  · rw [if_pos hpos, if_pos hpos, if_pos hpos]
  · rw [if_neg hpos, if_neg hpos, if_neg hpos]
    by_cases hoff : (f.blink_array ebx).status &&& 1 = 0
    · rw [if_pos hoff, if_pos hoff, if_pos hoff]
    · rw [if_neg hoff, if_neg hoff, if_neg hoff]

theorem Blink.tick_location (b : Blink) : b.tick.location = b.location := by
  unfold Blink.tick
  split
  · rfl
  · split
    · rfl
    · rfl

theorem sameLinks_tasklet_item (ebx : ℕ) (f : Blinkers) : SameLinks f (tasklet_item ebx f) := by
  rw [tasklet_item_eq]
  exact sameLinks_change (Blink.tick_location _) _

/-- **A tick ends**, and every record has made its own. -/
theorem Listed.tasklet (h : Listed f slots w) (hfuel : BLINKS < fuel) :
    ∃ f', mp1_rtc_tasklet fuel f = some f' ∧ Listed f' slots w.tasklet := by
  have heach : mp1_rtc_tasklet fuel f = some (slots.foldl (fun f i => tasklet_item i f) f) :=
    for_each_eq h.linked (fun i f => (sameLinks_tasklet_item i f).next)
      (Nat.lt_of_le_of_lt h.length_le hfuel)
  have hlinks : SameLinks f (slots.foldl (fun f i => tasklet_item i f) f) := by
    apply List.foldlRecOn slots (motive := SameLinks f)
    · exact ⟨rfl, rfl, fun _ => rfl⟩
    · intro f₁ h₁ i _
      have h₂ := sameLinks_tasklet_item i f₁
      exact ⟨h₂.head.trans h₁.head, h₂.next.trans h₁.next,
        fun j => (h₂.location j).trans (h₁.location j)⟩
  -- the records and the screen, as the loop changes them
  have hview : slots.foldl (fun v i => (Function.update v.1 i (v.1 i).tick, (v.1 i).draw v.2))
      (f.fields, f.vmem) = ((slots.foldl (fun f i => tasklet_item i f) f).fields,
        (slots.foldl (fun f i => tasklet_item i f) f).vmem) := by
    apply List.foldl_hom (fun f : Blinkers => (f.fields, f.vmem))
    intro f₁ i
    rw [tasklet_item_eq, fields_change]
    rfl
  rw [foldl_update Blink.tick Blink.draw h.nodup, Prod.mk.injEq] at hview
  refine ⟨_, heach, ?_⟩
  have hlisted := h.same hlinks
  rw [← hview.1, ← hview.2, ← h.blinks, ← h.screen] at hlisted
  have hmap : slots.map (fun i => if i ∈ slots then (f.fields i).tick else f.fields i)
      = w.blinks.map Blink.tick := by
    rw [h.blinks, List.map_map]
    apply List.map_congr_left
    intro i hi
    exact if_pos hi
  rwa [hmap] at hlisted

end

/-! ## Runs -/

/-- The calls of a program. -/
inductive BlinkOp
  | ioctl (command : BlinkCommand)
  | tasklet

/-- What the caller gets: a value, and a structure without its link. -/
structure BlinkAnswer where
  value : Option Int
  found : Option Blink

/-- A call, on the variables. -/
def blink_perform (fuel : ℕ) (f : Blinkers) : BlinkOp → Option (BlinkAnswer × Blinkers)
  | .ioctl command => (mp1_ioctl fuel f command).map fun (answer, f) =>
      (⟨some answer.1, answer.2.map mp1_blink_struct.toBlink⟩, f)
  | .tasklet => (mp1_rtc_tasklet fuel f).map fun f => (⟨none, none⟩, f)

/-- A call, on the list. -/
def Listing.perform (w : Listing) : BlinkOp → BlinkAnswer × Listing
  | .ioctl (.RTC_ADD user) => (⟨some (w.add user.toBlink).1, none⟩, (w.add user.toBlink).2)
  | .ioctl (.RTC_REMOVE arg) =>
      (⟨some (w.remove (arg.setWidth 16)).1, none⟩, (w.remove (arg.setWidth 16)).2)
  | .ioctl (.RTC_FIND location) =>
      match w.blinks.find? (Blink.at location) with
      | none => (⟨some (-1), none⟩, w)
      | some b => (⟨some 0, some b⟩, w)
  | .ioctl (.RTC_SYNC arg) =>
      let synced := w.sync ((arg >>> 16).setWidth 16) (arg.setWidth 16)
      (⟨some synced.1, none⟩, synced.2)
  | .tasklet => (⟨none, none⟩, w.tasklet)

/-- The answers to the calls, and what is left. -/
def blink_run (fuel : ℕ) : Blinkers → List BlinkOp → Option (List BlinkAnswer × Blinkers)
  | f, [] => some ([], f)
  | f, op :: ops =>
      (blink_perform fuel f op).bind fun (answer, f) =>
      (blink_run fuel f ops).map fun (answers, f) => (answer :: answers, f)

def Listing.run : Listing → List BlinkOp → List BlinkAnswer × Listing
  | w, [] => ([], w)
  | w, op :: ops => ((w.perform op).1 :: (Listing.run (w.perform op).2 ops).1,
      (Listing.run (w.perform op).2 ops).2)

/-- Nothing is added at location 0. -/
def BlinkOp.Placed : BlinkOp → Prop
  | .ioctl (.RTC_ADD user) => user.location ≠ 0
  | _ => True

instance : (op : BlinkOp) → Decidable op.Placed
  | .ioctl (.RTC_ADD _) => inferInstanceAs (Decidable (_ ≠ _))
  | .ioctl (.RTC_REMOVE _) => isTrue trivial
  | .ioctl (.RTC_FIND _) => isTrue trivial
  | .ioctl (.RTC_SYNC _) => isTrue trivial
  | .tasklet => isTrue trivial

/-- The variables when `main` has cleared the array. -/
def no_blinks (vmem : ℕ → UInt8) : Blinkers := ⟨fun _ => blank_blink, none, vmem⟩

theorem listed_no_blinks (vmem : ℕ → UInt8) : Listed (no_blinks vmem) [] ⟨[], vmem⟩ where
  linked := .nil
  nodup := List.nodup_nil
  used _ := iff_of_false List.not_mem_nil fun h => h.2 rfl
  blinks := rfl
  screen := rfl

section

variable {f : Blinkers} {slots : List ℕ} {w : Listing} {fuel : ℕ}

/-- **A call is answered as the list answers it.** -/
theorem Listed.perform (h : Listed f slots w) (hfuel : BLINKS < fuel) {op : BlinkOp}
    (hplaced : op.Placed) : ∃ f' slots', blink_perform fuel f op = some ((w.perform op).1, f') ∧
      Listed f' slots' (w.perform op).2 := by
  cases op with
  | ioctl command =>
      unfold blink_perform mp1_ioctl Listing.perform
      cases command with
      | RTC_ADD user =>
          obtain ⟨slots', hlisted, hvalue⟩ := h.add hplaced
          dsimp only
          rw [← hvalue]
          exact ⟨_, slots', rfl, hlisted⟩
      | RTC_REMOVE arg =>
          obtain ⟨value, f', slots', hcode, hlisted, hvalue⟩ := h.remove hfuel arg
          dsimp only
          rw [hcode, ← hvalue]
          exact ⟨f', slots', rfl, hlisted⟩
      | RTC_FIND location =>
          obtain ⟨found, hfind, -, hlist⟩ := h.find_helper hfuel location
          dsimp only
          unfold mp1_ioctl_find
          rw [hfind, hlist]
          cases found with
          | none => exact ⟨f, slots, rfl, h⟩
          | some i => exact ⟨f, slots, rfl, h⟩
      | RTC_SYNC arg =>
          obtain ⟨value, f', hcode, hlisted, hvalue⟩ := h.sync hfuel arg
          dsimp only
          rw [hcode, ← hvalue]
          exact ⟨f', slots, rfl, hlisted⟩
  | tasklet =>
      obtain ⟨f', hcode, hlisted⟩ := h.tasklet hfuel
      unfold blink_perform Listing.perform
      dsimp only
      rw [hcode]
      exact ⟨f', slots, rfl, hlisted⟩

theorem Listed.run (h : Listed f slots w) (hfuel : BLINKS < fuel) {ops : List BlinkOp}
    (hplaced : ∀ op ∈ ops, op.Placed) :
    ∃ f' slots', blink_run fuel f ops = some ((w.run ops).1, f') ∧ Listed f' slots' (w.run ops).2 := by
  induction ops generalizing f slots w with
  | nil => exact ⟨f, slots, rfl, h⟩
  | cons op ops ih =>
      obtain ⟨f₁, slots₁, hcode, hlisted⟩ := h.perform hfuel (hplaced op List.mem_cons_self)
      obtain ⟨f', slots', hrun, hlisted'⟩ := ih hlisted fun op' hop' =>
        hplaced op' (List.mem_cons_of_mem op hop')
      refine ⟨f', slots', ?_, hlisted'⟩
      unfold blink_run
      rw [hcode, Option.bind_some]
      dsimp only
      rw [hrun]
      rfl

end

/-- **The linked array is a list.** As long as nothing is added at location 0, every call ends, is
answered as a list of at most 2000 records answers it, and leaves the records and the screen of that
list. -/
theorem blinkers_listed {fuel : ℕ} (hfuel : BLINKS < fuel) (vmem : ℕ → UInt8) {ops : List BlinkOp}
    (hplaced : ∀ op ∈ ops, op.Placed) :
    ∃ f slots, blink_run fuel (no_blinks vmem) ops = some ((Listing.run ⟨[], vmem⟩ ops).1, f) ∧
      Listed f slots (Listing.run ⟨[], vmem⟩ ops).2 :=
  (listed_no_blinks vmem).run hfuel hplaced

/-- The record that `main` adds by itself. -/
def main_blink : mp1_blink_struct := ⟨⟨6 * 80 + 60, 0x49, 0x4D, 7, 6, 0, 0⟩, none⟩

theorem blinkers_listed_demo :
    ∃ f slots, blink_run 2001 (no_blinks fun _ => 0)
        [.ioctl (.RTC_ADD main_blink), .tasklet, .ioctl (.RTC_REMOVE (6 * 80 + 60))]
      = some ([⟨some 0, none⟩, ⟨none, none⟩, ⟨some 0, none⟩], f) ∧ Listed f slots
        ⟨[], Function.update (fun _ => 0) 1080 0x49⟩ :=
  blinkers_listed (by decide) (fun _ => 0) (by decide)

theorem mp1_malloc_congr {f f' : Blinkers}
    (h : ∀ i, (f'.blink_array i).location = 0 ↔ (f.blink_array i).location = 0) :
    mp1_malloc f' = mp1_malloc f := by
  unfold mp1_malloc
  simp only [h]

/-- **A record at location 0 breaks the links.** It is handed out again for the record that is added
next, which is then linked to itself, so that the tick after it does not end, and no search for
another location does. -/
theorem location_zero_endless {f : Blinkers} {i : ℕ} (hroom : mp1_malloc f = some i)
    {zero user : mp1_blink_struct} (hzero : zero.location = 0)
    (huser : user.location.toNat < BLINKS) (fuel : ℕ) :
    mp1_malloc (mp1_ioctl_add zero f).2 = some i ∧
      (mp1_ioctl_add user (mp1_ioctl_add zero f).2).2.next i = some i ∧
      mp1_rtc_tasklet fuel (mp1_ioctl_add user (mp1_ioctl_add zero f).2).2 = none ∧
      ∀ location, location ≠ user.location →
        mp1_find_helper fuel location (mp1_ioctl_add user (mp1_ioctl_add zero f).2).2 = none := by
  have hlt : zero.location.toNat < BLINKS := by
    rw [hzero]
    decide
  rw [mp1_ioctl_add_some hlt hroom]
  -- the record passes for a free one, so the search finds the same
  have hagain : mp1_malloc ⟨Function.update f.blink_array i ⟨zero.toBlink.begin, f.mp1_list_head⟩,
      some i, Function.update f.vmem (2 * zero.location.toNat) zero.on_char⟩ = some i := by
    refine (mp1_malloc_congr fun j => ?_).trans hroom
    dsimp only
    by_cases hj : j = i
    · subst hj
      have hfree := List.find?_some hroom
      rw [decide_eq_true_eq] at hfree
      rw [Function.update_self]
      exact iff_of_true hzero hfree
    · rw [Function.update_of_ne hj]
  rw [mp1_ioctl_add_some huser hagain]
  dsimp only
  rw [Function.update_idem]
  have hself : ∀ v : ℕ → UInt8,
      (⟨Function.update f.blink_array i ⟨user.toBlink.begin, some i⟩, some i, v⟩ : Blinkers).next i
        = some i := by
    intro v
    unfold Blinkers.next
    dsimp only
    rw [Function.update_self]
  refine ⟨hagain, hself _, ?_, fun location hne => ?_⟩
  · exact for_each_eq_none (hself _) (fun j f => (sameLinks_tasklet_item j f).next) fuel
  · refine find_eq_none (hself _) (decide_eq_false fun heq => ?_) fuel
    dsimp only at heq
    rw [Function.update_self] at heq
    exact hne heq.symm

theorem location_zero_endless_demo : ∃ i,
    mp1_malloc (mp1_ioctl_add blank_blink (no_blinks fun _ => 0)).2 = some i ∧
    (mp1_ioctl_add main_blink (mp1_ioctl_add blank_blink (no_blinks fun _ => 0)).2).2.next i = some i ∧
    mp1_rtc_tasklet 1000000 (mp1_ioctl_add main_blink (mp1_ioctl_add blank_blink
      (no_blinks fun _ => 0)).2).2 = none := by
  have hroom : mp1_malloc (no_blinks fun _ => 0) ≠ none := fun hnone =>
    absurd ((listed_no_blinks _).malloc_eq_none.mp hnone) (by decide)
  obtain ⟨i, hi⟩ := Option.ne_none_iff_exists'.mp hroom
  obtain ⟨hagain, hself, htick, -⟩ := @location_zero_endless _ i hi blank_blink main_blink rfl
    (by decide) 1000000
  exact ⟨i, hagain, hself, htick⟩

end LinuxLikeOS
