/-
The least free slot of a range, and a table of slots that are handed out and taken back.

Nothing here mentions a kernel. `used` says which slots are taken; the search for a slot
goes through `lo`, …, `hi - 1` in order, as a `find?` on the range or as a loop would. A
record of the slots handed out and not yet taken back agrees with `used` when every slot
that is handed out is a free one and every slot that is taken back is a used one, and
`Handed` is that agreement.
-/
import Mathlib.Data.Finset.Erase
import Mathlib.Data.Finset.Insert
import Mathlib.Data.List.Nodup

set_option autoImplicit false

namespace Slots

variable {used used' : ℕ → Prop} {lo hi i j : ℕ}

/-! ## The search -/

/-- The slot is free, and every slot of the range before it is used. -/
structure LeastFree (used : ℕ → Prop) (lo hi i : ℕ) : Prop where
  lower : lo ≤ i
  upper : i < hi
  free : ¬ used i
  least : ∀ j, lo ≤ j → j < i → used j

/-- All slots of the range are used. -/
def Full (used : ℕ → Prop) (lo hi : ℕ) : Prop := ∀ i, lo ≤ i → i < hi → used i

theorem LeastFree.not_full (h : LeastFree used lo hi i) : ¬ Full used lo hi :=
  fun hfull => h.free (hfull i h.lower h.upper)

theorem LeastFree.unique (h : LeastFree used lo hi i) (h' : LeastFree used lo hi j) : i = j := by
  rcases Nat.lt_trichotomy i j with hlt | heq | hlt
  · exact absurd (h'.least i h.lower hlt) h.free
  · exact heq
  · exact absurd (h.least j h'.lower hlt) h'.free

/-- The search through a range finds the first slot that passes the test. -/
theorem find_eq_some {p : ℕ → Bool} :
    ((List.range hi).drop lo).find? p = some i ↔ LeastFree (fun j => p j = false) lo hi i := by
  rw [List.range_eq_range', List.drop_range', List.find?_range'_eq_some, List.mem_range'_1]
  constructor
  · rintro ⟨hfree, hmem, hleast⟩
    refine ⟨by omega, by omega, by simp [hfree], fun j hj hji => ?_⟩
    simpa using hleast j (by omega) hji
  · intro h
    have hlower := h.lower
    have hupper := h.upper
    refine ⟨by simpa using h.free, by omega, fun j hj hji => ?_⟩
    simpa using h.least j (by omega) hji

theorem find_eq_none {p : ℕ → Bool} :
    ((List.range hi).drop lo).find? p = none ↔ Full (fun j => p j = false) lo hi := by
  rw [List.range_eq_range', List.drop_range', List.find?_range'_eq_none]
  constructor
  · intro h i hlo hhi
    simpa using h i (by omega) (by omega)
  · intro h i hlo hhi
    simpa using h i (by omega) (by omega)

/-! ## The record -/

/-- The used slots of the range are those handed out and not yet taken back. -/
def Handed (used : ℕ → Prop) (lo hi : ℕ) (out : Finset ℕ) : Prop :=
  ∀ i, i ∈ out ↔ (lo ≤ i ∧ i < hi) ∧ used i

theorem handed_empty (h : ∀ i, lo ≤ i → i < hi → ¬ used i) : Handed used lo hi ∅ := by
  intro i
  refine iff_of_false (Finset.notMem_empty i) ?_
  rintro ⟨⟨hlo, hhi⟩, huse⟩
  exact h i hlo hhi huse

/-- Nothing changes. -/
theorem Handed.congr {out : Finset ℕ} (h : Handed used lo hi out)
    (hused : ∀ i, lo ≤ i → i < hi → (used' i ↔ used i)) : Handed used' lo hi out := by
  intro i
  rw [h i]
  exact and_congr_right fun hi => (hused i hi.1 hi.2).symm

/-- A slot of the range is handed out. -/
theorem Handed.insert {out : Finset ℕ} (h : Handed used lo hi out) (hlo : lo ≤ i) (hhi : i < hi)
    (hused : ∀ j, used' j ↔ j = i ∨ used j) : Handed used' lo hi (insert i out) := by
  intro j
  rw [Finset.mem_insert, h j, hused j]
  constructor
  · rintro (rfl | ⟨hrange, huse⟩)
    · exact ⟨⟨hlo, hhi⟩, Or.inl rfl⟩
    · exact ⟨hrange, Or.inr huse⟩
  · rintro ⟨hrange, rfl | huse⟩
    · exact Or.inl rfl
    · exact Or.inr ⟨hrange, huse⟩

/-- A slot is taken back. -/
theorem Handed.erase {out : Finset ℕ} (h : Handed used lo hi out)
    (hused : ∀ j, used' j ↔ j ≠ i ∧ used j) : Handed used' lo hi (out.erase i) := by
  intro j
  rw [Finset.mem_erase, h j, hused j]
  constructor
  · rintro ⟨hne, hrange, huse⟩
    exact ⟨hrange, hne, huse⟩
  · rintro ⟨hrange, hne, huse⟩
    exact ⟨hne, hrange, huse⟩

end Slots
