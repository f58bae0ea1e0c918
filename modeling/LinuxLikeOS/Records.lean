/-
Lists that stand in an array, and records of one width behind each other.

`HoldsAt` says what an array holds from an index on. A list of records whose encodings all have
the same length can be read by position: record `i` begins at `w * i`.
-/
import Mathlib.Data.List.GetD
import Mathlib.Data.Nat.Notation

set_option autoImplicit false

namespace Records

variable {α β : Type*} {mem : ℕ → α} {a w i : ℕ} {xs ys : List α}

/-- The list stands in the array from `a` on. -/
def HoldsAt (mem : ℕ → α) (a : ℕ) (xs : List α) : Prop :=
  ∀ i (hi : i < xs.length), mem (a + i) = xs[i]

instance [DecidableEq α] (mem : ℕ → α) (a : ℕ) (xs : List α) : Decidable (HoldsAt mem a xs) :=
  inferInstanceAs (Decidable (∀ _, _))

theorem holdsAt_append :
    HoldsAt mem a (xs ++ ys) ↔ HoldsAt mem a xs ∧ HoldsAt mem (a + xs.length) ys := by
  constructor
  · intro h
    constructor
    · intro i hi
      have hat := h i (by rw [List.length_append]; omega)
      rwa [List.getElem_append_left hi] at hat
    · intro i hi
      have hat := h (xs.length + i) (by rw [List.length_append]; omega)
      rw [List.getElem_append_right (by omega)] at hat
      simp only [Nat.add_sub_cancel_left] at hat
      rw [Nat.add_assoc]
      exact hat
  · rintro ⟨hxs, hys⟩ i hi
    by_cases hlt : i < xs.length
    · rw [List.getElem_append_left hlt]
      exact hxs i hlt
    · rw [List.length_append] at hi
      have hat := hys (i - xs.length) (by omega)
      have hpos : a + xs.length + (i - xs.length) = a + i := by omega
      rw [hpos] at hat
      rw [List.getElem_append_right (by omega)]
      exact hat

theorem holdsAt_cons {x : α} : HoldsAt mem a (x :: xs) ↔ mem a = x ∧ HoldsAt mem (a + 1) xs := by
  have hone : HoldsAt mem a [x] ↔ mem a = x := by
    constructor
    · intro h
      exact h 0 (Nat.zero_lt_one)
    · intro h i hi
      obtain rfl : i = 0 := Nat.lt_one_iff.mp hi
      exact h
  rw [← List.singleton_append, holdsAt_append, hone]
  rfl

/-- A list stands in the array it is. -/
theorem holdsAt_getD (xs : List α) (default : α) : HoldsAt (fun i => xs.getD i default) 0 xs := by
  intro i hi
  rw [Nat.zero_add]
  exact List.getD_eq_getElem _ _ hi

theorem length_flatMap_const {enc : β → List α} (hw : ∀ x, (enc x).length = w) (l : List β) :
    (l.flatMap enc).length = w * l.length := by
  induction l with
  | nil => rfl
  | cons x l ih =>
      rw [List.flatMap_cons, List.length_append, hw, ih, List.length_cons, Nat.mul_succ, Nat.add_comm]

/-- **Record `i`** stands at its place. -/
theorem HoldsAt.record {enc : β → List α} (hw : ∀ x, (enc x).length = w) {l : List β}
    (h : HoldsAt mem a (l.flatMap enc)) (hi : i < l.length) : HoldsAt mem (a + w * i) (enc l[i]) := by
  have hsplit : l = l.take i ++ l[i] :: l.drop (i + 1) := by
    rw [← List.drop_eq_getElem_cons hi, List.take_append_drop]
  have hbefore : ((l.take i).flatMap enc).length = w * i := by
    rw [length_flatMap_const hw, List.length_take, Nat.min_eq_left (Nat.le_of_lt hi)]
  rw [hsplit, List.flatMap_append, List.flatMap_cons, holdsAt_append, holdsAt_append, hbefore] at h
  exact h.2.1

/-- Element `n` of the records is one of record `n / w`. -/
theorem getElem_flatMap_record {enc : β → List α} (hw : ∀ x, (enc x).length = w) (hpos : 0 < w)
    {l : List β} {n : ℕ} (hn : n < (l.flatMap enc).length) :
    ∃ (hi : n / w < l.length) (hr : n % w < (enc l[n / w]).length),
      (l.flatMap enc)[n] = (enc l[n / w])[n % w] := by
  have hlen := length_flatMap_const hw l
  have hi : n / w < l.length := by
    rw [Nat.div_lt_iff_lt_mul hpos, Nat.mul_comm]
    omega
  have hr : n % w < (enc l[n / w]).length := by
    rw [hw]
    exact Nat.mod_lt n hpos
  refine ⟨hi, hr, ?_⟩
  have hat := (holdsAt_getD (l.flatMap enc) ((l.flatMap enc)[n])).record hw hi (n % w) hr
  rw [Nat.zero_add, Nat.div_add_mod, List.getD_eq_getElem _ _ hn] at hat
  exact hat

end Records
