/-
Reversing the first `n` elements of an array in place.

Two indices start at the ends and move towards each other, and at every step the elements
under them change places. `Mirrored` is what such a loop keeps: how far the two ends are done.
An odd middle element is its own image, so the loop may stop as soon as the indices meet.
-/
import Mathlib.Logic.Function.Basic
import Mathlib.Data.Nat.Notation

set_option autoImplicit false

namespace Reversal

variable {α : Type*}

/-- The elements at two indices change places. -/
def exchange (a : ℕ → α) (i j : ℕ) : ℕ → α := Function.update (Function.update a j (a i)) i (a j)

theorem exchange_left (a : ℕ → α) (i j : ℕ) : exchange a i j i = a j := Function.update_self _ _ _

theorem exchange_right {a : ℕ → α} {i j : ℕ} (h : j ≠ i) : exchange a i j j = a i := by
  unfold exchange
  rw [Function.update_of_ne h, Function.update_self]

theorem exchange_of_ne {a : ℕ → α} {i j l : ℕ} (hi : l ≠ i) (hj : l ≠ j) :
    exchange a i j l = a l := by
  unfold exchange
  rw [Function.update_of_ne hi, Function.update_of_ne hj]

/-- The first `m` of the `n` elements of `a` have changed places with the last `m`, and the
other elements have not moved. -/
structure Mirrored (a b : ℕ → α) (n m : ℕ) : Prop where
  outer : ∀ i, i < n → i < m ∨ n ≤ i + m → b i = a (n - 1 - i)
  inner : ∀ i, m ≤ i → i + m < n → b i = a i
  behind : ∀ i, n ≤ i → b i = a i

namespace Mirrored

variable {a b : ℕ → α} {n m : ℕ}

theorem start (a : ℕ → α) (n : ℕ) : Mirrored a a n 0 where
  outer i hi hout := by omega
  inner _ _ _ := rfl
  behind _ _ := rfl

/-- One more pair. -/
theorem exchange (h : Mirrored a b n m) (hm : m < n - 1 - m) :
    Mirrored a (exchange b m (n - 1 - m)) n (m + 1) where
  outer i hi hout := by
    by_cases hfirst : i = m
    · subst hfirst
      rw [exchange_left, h.inner _ (by omega) (by omega)]
    · by_cases hlast : i = n - 1 - m
      · subst hlast
        have hback : n - 1 - (n - 1 - m) = m := by omega
        rw [exchange_right hfirst, h.inner m (Nat.le_refl m) (by omega), hback]
      · rw [exchange_of_ne hfirst hlast, h.outer i hi (by omega)]
  inner i hlow hhigh := by
    rw [exchange_of_ne (by omega) (by omega), h.inner i (by omega) (by omega)]
  behind i hi := by rw [exchange_of_ne (by omega) (by omega), h.behind i hi]

/-- The indices have met. -/
theorem whole (h : Mirrored a b n m) (hm : n - 1 - m ≤ m) {i : ℕ} (hi : i < n) :
    b i = a (n - 1 - i) := by
  by_cases hout : i < m ∨ n ≤ i + m
  · exact h.outer i hi hout
  · -- only the middle element is left
    have hmid : n - 1 - i = i := by omega
    rw [hmid, h.inner i (by omega) (by omega)]

end Mirrored

end Reversal
