/-
Walking over a sequence of bytes that lies in blocks.

A position in the sequence is the pair of a block number and an index inside the block.
Code that copies from such a sequence keeps the pair and moves it byte by byte, going to
the start of the next block at the end of each. `walk` is that loop over any block size.
It visits the quotient and the remainder of one position after the other (`walk_eq`), so
what it reads is a contiguous piece of the sequence, and the blocks it enters are those
the piece lies in.
-/
import Mathlib.Data.List.Basic
import Mathlib.Data.Nat.Notation

set_option autoImplicit false

namespace BlockCursor

variable {B : ℕ}

/-- The pair for a position. -/
def at_position (B pos : ℕ) : ℕ × ℕ := (pos / B, pos % B)

/-- One byte further. -/
def next (B : ℕ) (c : ℕ × ℕ) : ℕ × ℕ := if c.2 + 1 ≥ B then (c.1 + 1, 0) else (c.1, c.2 + 1)

/-- The pairs `n` iterations visit. -/
def walk (B : ℕ) : ℕ → ℕ × ℕ → List (ℕ × ℕ)
  | 0, _ => []
  | n + 1, c => c :: walk B n (next B c)

theorem next_at_position (hB : 0 < B) (pos : ℕ) :
    next B (at_position B pos) = at_position B (pos + 1) := by
  have hlt := Nat.mod_lt pos hB
  have hdiv := Nat.div_add_mod pos B
  unfold next at_position
  dsimp only
  by_cases hend : pos % B + 1 ≥ B
  · -- the last byte of a block
    have hnext : pos + 1 = B * (pos / B + 1) := by
      rw [Nat.mul_add]
      omega
    rw [if_pos hend, hnext, Nat.mul_div_cancel_left _ hB, Nat.mul_mod_right]
  · have hnext : pos + 1 = pos % B + 1 + B * (pos / B) := by omega
    have hsmall : pos % B + 1 < B := by omega
    rw [if_neg hend, hnext, Nat.add_mul_div_left _ _ hB, Nat.add_mul_mod_self_left,
      Nat.div_eq_of_lt hsmall, Nat.mod_eq_of_lt hsmall, Nat.zero_add]

/-- **The walk is contiguous.** -/
theorem walk_eq (hB : 0 < B) (n pos : ℕ) :
    walk B n (at_position B pos) = (List.range n).map fun j => at_position B (pos + j) := by
  induction n generalizing pos with
  | zero => rfl
  | succ n ih =>
      rw [walk, next_at_position hB, ih, List.range_succ_eq_map, List.map_cons, List.map_map]
      refine congrArg (List.cons _) (List.map_congr_left fun j _ => ?_)
      show at_position B (pos + 1 + j) = at_position B (pos + (j + 1))
      rw [Nat.add_assoc, Nat.add_comm 1 j]

/-- A walk of bytes before `len` stays in blocks that hold one of them. -/
theorem block_of_mem_walk (hB : 0 < B) {n pos len : ℕ} (hlen : pos + n ≤ len) {c : ℕ × ℕ}
    (hc : c ∈ walk B n (at_position B pos)) : c.1 * B < len := by
  rw [walk_eq hB] at hc
  obtain ⟨j, hj, rfl⟩ := List.mem_map.mp hc
  have hjn : j < n := List.mem_range.mp hj
  have hle : (pos + j) / B * B ≤ pos + j := Nat.div_mul_le_self _ _
  show (pos + j) / B * B < len
  omega

end BlockCursor
