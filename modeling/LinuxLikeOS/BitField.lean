/-
Bit fields of a machine word.

A field is a position and a width. `get` reads it as a natural number and `set`
assigns it the way C assigns a bit field: the value is cut to the width of the
field and every other bit of the word stays. Two views of one word, as in a
union of two packed structures, are two families of fields over the same word, so
the only laws that are needed are the ones for one field read after one field
written: the same field (`get_set_self`) and a field that shares no bit with it
(`get_set_of_disjoint`).
-/
import Mathlib.Data.Nat.Bits
import Mathlib.Algebra.GroupWithZero.Nat

set_option autoImplicit false

/-- The bits `lo, ..., lo + len - 1` of a word. -/
structure BitField where
  lo : ℕ
  len : ℕ

namespace BitField

variable {w : ℕ}

/-- The value of a field. -/
def get (f : BitField) (x : BitVec w) : ℕ := (x.toNat >>> f.lo) % 2 ^ f.len

/-- The word whose ones are the bits of the field. -/
def mask (f : BitField) (w : ℕ) : BitVec w := BitVec.ofNat w (2 ^ f.len - 1) <<< f.lo

/-- Assignment to a field, cut to its width. -/
def set (f : BitField) (v : ℕ) (x : BitVec w) : BitVec w :=
  (x &&& ~~~(f.mask w)) ||| (BitVec.ofNat w (v % 2 ^ f.len) <<< f.lo)

/-- Two fields without a common bit. -/
def Disjoint (f g : BitField) : Prop := f.lo + f.len ≤ g.lo ∨ g.lo + g.len ≤ f.lo

instance (f g : BitField) : Decidable (Disjoint f g) :=
  inferInstanceAs (Decidable (_ ∨ _))

theorem testBit_get (f : BitField) (x : BitVec w) (i : ℕ) :
    (f.get x).testBit i = (decide (i < f.len) && x.getLsbD (f.lo + i)) := by
  rw [get, Nat.testBit_mod_two_pow, Nat.testBit_shiftRight, BitVec.testBit_toNat]

theorem getLsbD_mask (f : BitField) (i : ℕ) :
    (f.mask w).getLsbD i
      = (decide (i < w) && (decide (f.lo ≤ i) && decide (i < f.lo + f.len))) := by
  rw [mask, BitVec.getLsbD_shiftLeft, BitVec.getLsbD_ofNat, Nat.testBit_two_pow_sub_one]
  by_cases h1 : i < w <;> by_cases h2 : f.lo ≤ i <;> by_cases h3 : i < f.lo + f.len <;>
    simp [h1, h2, h3] <;> omega

/-- The bits of a word after an assignment: those of the value inside the field,
the old ones outside it. -/
theorem getLsbD_set (f : BitField) (v : ℕ) (x : BitVec w) {i : ℕ} (hi : i < w) :
    (f.set v x).getLsbD i
      = if f.lo ≤ i ∧ i < f.lo + f.len then v.testBit (i - f.lo) else x.getLsbD i := by
  rw [set, BitVec.getLsbD_or, BitVec.getLsbD_and, BitVec.getLsbD_not, getLsbD_mask,
    BitVec.getLsbD_shiftLeft, BitVec.getLsbD_ofNat, Nat.testBit_mod_two_pow]
  by_cases h2 : f.lo ≤ i
  · by_cases h3 : i < f.lo + f.len
    · have h4 : i - f.lo < f.len := by omega
      have h5 : i - f.lo < w := by omega
      simp [hi, h2, h3, h4, h5]
    · have h4 : ¬ i - f.lo < f.len := by omega
      simp [hi, h2, h3, h4]
  · simp [hi, h2]

/-- **Reading the field just written** gives the value, cut to the width. -/
theorem get_set_self (f : BitField) (v : ℕ) (x : BitVec w) (hw : f.lo + f.len ≤ w) :
    f.get (f.set v x) = v % 2 ^ f.len := by
  apply Nat.eq_of_testBit_eq
  intro i
  rw [testBit_get, Nat.testBit_mod_two_pow]
  by_cases hi : i < f.len
  · rw [getLsbD_set f v x (by omega), if_pos ⟨by omega, by omega⟩, Nat.add_sub_cancel_left]
  · simp [hi]

/-- **Reading another field** gives what it held before. -/
theorem get_set_of_disjoint {f g : BitField} (hfg : Disjoint f g) (v : ℕ) (x : BitVec w) :
    f.get (g.set v x) = f.get x := by
  apply Nat.eq_of_testBit_eq
  intro i
  rw [testBit_get, testBit_get]
  by_cases hi : i < f.len
  · by_cases hiw : f.lo + i < w
    · rw [getLsbD_set g v x hiw, if_neg]
      rcases hfg with h | h <;> omega
    · rw [BitVec.getLsbD_of_ge _ _ (by omega), BitVec.getLsbD_of_ge _ _ (by omega)]
  · simp [hi]

end BitField
