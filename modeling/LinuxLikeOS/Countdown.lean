/-
A countdown that somebody waits for.

Nothing here mentions a kernel. The countdown is loaded with its period, every tick takes
one off, and the tick that finds it at zero releases the waiter and loads it again. Because
zero is tested before one is taken off, the waiter is released by the tick after the one
that reaches zero: a period of `p` is a wait of `p + 1` ticks (`waiting_ticks`).
-/
import Mathlib.Logic.Basic
import Mathlib.Logic.Function.Iterate
import Mathlib.Order.Basic
import Mathlib.Data.Nat.Notation

set_option autoImplicit false

namespace Countdown

structure Timer where
  period : Int
  count : Int
  waiting : Prop

/-- The waiter arrives, and the countdown is loaded. -/
def start (s : Timer) : Timer := { s with count := s.period, waiting := True }

/-- One tick. -/
def tick (s : Timer) : Timer :=
  if s.count = 0 then { s with count := s.period, waiting := False }
  else { s with count := s.count - 1 }

/-- `n` ticks. -/
def ticks (n : ℕ) (s : Timer) : Timer := tick^[n] s

theorem ticks_succ (n : ℕ) (s : Timer) : ticks (n + 1) s = tick (ticks n s) :=
  Function.iterate_succ_apply' tick n s

/-- Nobody starts to wait by a tick. -/
theorem tick_not_waiting {s : Timer} (h : ¬ s.waiting) : ¬ (tick s).waiting := by
  unfold tick
  split
  · exact id
  · exact h

/-- Up to its period the countdown has lost one for each tick. -/
theorem ticks_start {s : Timer} {n : ℕ} (hn : (n : Int) ≤ s.period) :
    ticks n (start s) = { s with count := s.period - n, waiting := True } := by
  induction n with
  | zero =>
      show start s = _
      unfold start
      rw [Int.natCast_zero, Int.sub_zero]
  | succ n ih =>
      have hlt : (n : Int) + 1 ≤ s.period := hn
      rw [ticks_succ, ih (by omega)]
      unfold tick
      rw [if_neg (by dsimp only; omega)]
      dsimp only
      congr 1
      omega

/-- **The wait**: the period and one tick more. -/
theorem waiting_ticks {s : Timer} (hp : 0 ≤ s.period) (n : ℕ) :
    (ticks n (start s)).waiting ↔ (n : Int) ≤ s.period := by
  constructor
  · intro hwait
    by_contra hlt
    -- the tick behind the period releases, and no later one undoes it
    have hreleased : ∀ m : ℕ, ¬ (ticks (s.period.toNat + 1 + m) (start s)).waiting := by
      intro m
      induction m with
      | zero =>
          rw [Nat.add_zero, ticks_succ, ticks_start (by omega)]
          unfold tick
          rw [if_pos (by dsimp only; omega)]
          exact id
      | succ m ih =>
          rw [← Nat.add_assoc, ticks_succ]
          exact tick_not_waiting ih
    have hm : n = s.period.toNat + 1 + (n - (s.period.toNat + 1)) := by omega
    rw [hm] at hwait
    exact hreleased _ hwait
  · intro hle
    rw [ticks_start hle]
    trivial

/-! ## Two phases -/

/-- A countdown that changes between two phases. -/
structure Phase where
  on : Bool
  left : ℕ
  deriving DecidableEq

/-- One tick, where the phases have these lengths. -/
def Phase.tick (on off : ℕ) (s : Phase) : Phase :=
  if 1 < s.left then { s with left := s.left - 1 }
  else ⟨!s.on, if s.on then off else on⟩

/-- The phase `n` ticks after the first one has begun. -/
def phase_at (on off n : ℕ) : Phase :=
  if n % (on + off) < on then ⟨true, on - n % (on + off)⟩ else ⟨false, on + off - n % (on + off)⟩

theorem phase_at_zero {on off : ℕ} (hon : 0 < on) : phase_at on off 0 = ⟨true, on⟩ := by
  unfold phase_at
  rw [Nat.zero_mod, if_pos hon, Nat.sub_zero]

/-- **The phases alternate**, each for its length. -/
theorem phase_at_succ {on off : ℕ} (hon : 0 < on) (hoff : 0 < off) (n : ℕ) :
    phase_at on off (n + 1) = (phase_at on off n).tick on off := by
  have hlt : n % (on + off) < on + off := Nat.mod_lt n (by omega)
  have hsucc : (n + 1) % (on + off) = (n % (on + off) + 1) % (on + off) :=
    (Nat.mod_add_mod n (on + off) 1).symm
  unfold phase_at
  rw [hsucc]
  generalize n % (on + off) = m at hlt
  by_cases hlast : m + 1 = on + off
  · -- the last tick of the second phase
    rw [hlast, Nat.mod_self, if_pos hon, if_neg (by omega)]
    unfold Phase.tick
    rw [if_neg (by dsimp only; omega)]
    rfl
  · rw [Nat.mod_eq_of_lt (by omega)]
    by_cases hfirst : m < on
    · rw [if_pos hfirst]
      unfold Phase.tick
      dsimp only
      by_cases hon' : m + 1 < on
      · rw [if_pos hon', if_pos (by omega), Phase.mk.injEq]
        exact ⟨rfl, by omega⟩
      · rw [if_neg hon', if_neg (by omega), Phase.mk.injEq]
        exact ⟨rfl, by rw [if_pos rfl]; omega⟩
    · rw [if_neg hfirst, if_neg (by omega)]
      unfold Phase.tick
      dsimp only
      rw [if_pos (by omega), Phase.mk.injEq]
      exact ⟨rfl, by omega⟩

end Countdown
