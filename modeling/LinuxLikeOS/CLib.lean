/-
The C integers and the string functions of `lib.c` the rest of the model is
written with.

`uint32_t` values are natural numbers and `int32_t` values are integers; the two
conversions are `u32` and `i32`, and they are written where the source converts.
Bytes are `UInt8`. A `char *` is the function that reads the memory it points to,
`s i` for `s[i]`, so a string without a terminator reads on into whatever follows
it, as it does in C.
-/
import Mathlib.Data.List.Basic
import Mathlib.Data.List.GetD
import Mathlib.Data.Nat.Find
import Mathlib.Data.Nat.Notation

set_option autoImplicit false

namespace LinuxLikeOS

/-! ## Integers -/

/-- Conversion to `uint32_t`. -/
def u32 (x : Int) : ℕ := (x % 4294967296).toNat

/-- Conversion to `int32_t`. -/
def i32 (x : Int) : Int := Int.bmod x 4294967296

/-- The value of a byte read as `int8_t`. -/
def i8 (b : UInt8) : Int := Int.bmod b.toNat 256

theorem u32_of_lt {n : ℕ} (h : n < 4294967296) : u32 (n : Int) = n := by
  unfold u32
  omega

theorem i32_of_lt {n : ℕ} (h : n < 2147483648) : i32 (n : Int) = n := by
  unfold i32
  rw [Int.bmod_def]
  omega

theorem u32_i32_of_lt {n : ℕ} (h : n < 4294967296) : u32 (i32 (n : Int)) = n := by
  unfold u32 i32
  rw [Int.bmod_def]
  split <;> omega

/-- `for (i = 0; i < n; i++) body`. -/
def for_loop {σ : Type*} (body : ℕ → σ → σ) : ℕ → σ → σ
  | 0, s => s
  | n + 1, s => body n (for_loop body n s)

/-- The rule for a counted loop: an invariant that holds before it and that every
iteration carries to the next index holds at its end. -/
theorem for_loop_invariant {σ : Type*} {body : ℕ → σ → σ} (I : ℕ → σ → Prop) {s : σ} {n : ℕ}
    (h₀ : I 0 s) (hstep : ∀ i s', i < n → I i s' → I (i + 1) (body i s')) :
    I n (for_loop body n s) := by
  induction n with
  | zero => exact h₀
  | succ n ih =>
      apply hstep n _ (Nat.lt_succ_self n)
      exact ih fun i s' hi => hstep i s' (Nat.lt_succ_of_lt hi)

/-- The rule for two runs of a loop: the same relation before and after every iteration
relates the two ends. -/
theorem for_loop_related {σ τ : Type*} {body : ℕ → σ → σ} {body' : ℕ → τ → τ} {n : ℕ}
    (R : σ → τ → Prop) (hstep : ∀ i s s', i < n → R s s' → R (body i s) (body' i s')) {s : σ}
    {s' : τ} (h : R s s') : R (for_loop body n s) (for_loop body' n s') := by
  induction n with
  | zero => exact h
  | succ n ih =>
      apply hstep n _ _ (Nat.lt_succ_self n)
      exact ih fun i s s' hi => hstep i s s' (Nat.lt_succ_of_lt hi)

/-! ## Strings -/

/-- A C string stored in a buffer: the bytes of the list, then the terminator. -/
def c_str (l : List UInt8) : ℕ → UInt8 := fun i => l.getD i 0

theorem c_str_eq {l : List UInt8} {i : ℕ} (hi : i < l.length) : c_str l i = l[i] :=
  List.getD_eq_getElem _ _ hi

theorem c_str_end {l : List UInt8} {i : ℕ} (hi : l.length ≤ i) : c_str l i = 0 :=
  List.getD_eq_default _ _ hi

/-- The number of bytes in the address space, which bounds every loop that runs
up to a terminator. -/
def ADDRESS_SPACE : ℕ := 4294967296

/-- `while (s[len] != '\0') len++`. -/
def strlen_from (s : ℕ → UInt8) : ℕ → ℕ → ℕ
  | 0, len => len
  | fuel + 1, len => if s len = 0 then len else strlen_from s fuel (len + 1)

def strlen (s : ℕ → UInt8) : ℕ := strlen_from s ADDRESS_SPACE 0

/-- The loop of `strncmp` with `n` bytes left, at index `i`. -/
def strncmp_from (s1 s2 : ℕ → UInt8) : ℕ → ℕ → Int
  | 0, _ => 0
  | n + 1, i =>
      if s1 i ≠ s2 i ∨ s1 i = 0 then i8 (s1 i) - i8 (s2 i)
      else strncmp_from s1 s2 n (i + 1)

def strncmp (s1 s2 : ℕ → UInt8) (n : ℕ) : Int := strncmp_from s1 s2 n 0

theorem strlen_from_eq {s : ℕ → UInt8} {n : ℕ} (hend : s n = 0)
    (hbody : ∀ i, i < n → s i ≠ 0) :
    ∀ fuel len, len ≤ n → n ≤ len + fuel → strlen_from s fuel len = n := by
  intro fuel
  induction fuel with
  | zero =>
      intro len h₁ h₂
      rw [strlen_from]
      omega
  | succ fuel ih =>
      intro len h₁ h₂
      rw [strlen_from]
      by_cases hz : s len = 0
      · rw [if_pos hz]
        by_contra hne
        exact hbody len (by omega) hz
      · rw [if_neg hz]
        have hne : len ≠ n := fun h => hz (h ▸ hend)
        exact ih (len + 1) (by omega) (by omega)

theorem le_strlen_from (s : ℕ → UInt8) (fuel len : ℕ) : len ≤ strlen_from s fuel len := by
  induction fuel generalizing len with
  | zero => exact Nat.le_refl len
  | succ fuel ih =>
      rw [strlen_from]
      split
      · exact Nat.le_refl len
      · exact Nat.le_trans (Nat.le_succ len) (ih (len + 1))

/-- The length of a string is the index of its first terminator. -/
theorem strlen_eq {s : ℕ → UInt8} {n : ℕ} (hn : n ≤ ADDRESS_SPACE) (hend : s n = 0)
    (hbody : ∀ i, i < n → s i ≠ 0) : strlen s = n :=
  strlen_from_eq hend hbody ADDRESS_SPACE 0 (Nat.zero_le n) (by omega)

/-- A string without a terminator among its first `n` bytes is at least as long. -/
theorem le_strlen {s : ℕ → UInt8} {n : ℕ} (hn : n ≤ ADDRESS_SPACE) (hbody : ∀ i, i < n → s i ≠ 0) :
    n ≤ strlen s := by
  have hfrom : ∀ fuel len, len ≤ n → n ≤ len + fuel → n ≤ strlen_from s fuel len := by
    intro fuel
    induction fuel with
    | zero =>
        intro len h₁ h₂
        rw [strlen_from]
        omega
    | succ fuel ih =>
        intro len h₁ h₂
        rw [strlen_from]
        by_cases hz : s len = 0
        · rw [if_pos hz]
          by_contra hlt
          exact hbody len (by omega) hz
        · rw [if_neg hz]
          by_cases hlen : len = n
          · subst hlen
            -- past `n` the loop only goes up
            exact Nat.le_trans (Nat.le_succ _) (le_strlen_from s fuel _)
          · exact ih (len + 1) (by omega) (by omega)
  exact hfrom ADDRESS_SPACE 0 (Nat.zero_le n) (by omega)

/-- The loop of `strlen` ends on the first terminator, or there is none. -/
theorem strlen_cases (s : ℕ → UInt8) :
    (s (strlen s) = 0 ∧ strlen s ≤ ADDRESS_SPACE ∧ ∀ i, i < strlen s → s i ≠ 0) ∨
      ADDRESS_SPACE ≤ strlen s := by
  by_cases hend : ∃ n, n ≤ ADDRESS_SPACE ∧ s n = 0
  · have hfirst := Nat.find_spec hend
    have hbody : ∀ i, i < Nat.find hend → s i ≠ 0 := by
      intro i hi hz
      exact Nat.find_min hend hi ⟨Nat.le_trans (Nat.le_of_lt hi) hfirst.1, hz⟩
    have hlen : strlen s = Nat.find hend := strlen_eq hfirst.1 hfirst.2 hbody
    left
    rw [hlen]
    exact ⟨hfirst.2, hfirst.1, hbody⟩
  · right
    apply le_strlen (Nat.le_refl _)
    intro i hi hz
    exact hend ⟨i, Nat.le_of_lt hi, hz⟩

/-- The length of a C string stored in a buffer. -/
theorem strlen_c_str {l : List UInt8} (hl : l.length ≤ ADDRESS_SPACE) (hzero : (0 : UInt8) ∉ l) :
    strlen (c_str l) = l.length := by
  apply strlen_eq hl
  · unfold c_str
    exact List.getD_eq_default _ _ (Nat.le_refl _)
  · intro i hi
    unfold c_str
    rw [List.getD_eq_getElem _ _ hi]
    intro hz
    exact hzero (hz ▸ List.getElem_mem hi)

theorem i8_inj {a b : UInt8} : i8 a - i8 b = 0 ↔ a = b := by
  have ha := a.toNat_lt
  have hb := b.toNat_lt
  constructor
  · intro h
    apply UInt8.toNat_inj.mp
    unfold i8 at h
    rw [Int.bmod_def, Int.bmod_def] at h
    omega
  · rintro rfl
    exact Int.sub_self _

/-- Two strings compare equal when they are the same up to the first terminator. -/
theorem strncmp_eq_zero_iff {s1 s2 : ℕ → UInt8} {n : ℕ} :
    strncmp s1 s2 n = 0 ↔ ∀ i, i < n → (∀ j, j < i → s1 j ≠ 0) → s1 i = s2 i := by
  have hfrom : ∀ n k, strncmp_from s1 s2 n k = 0 ↔
      ∀ i, k ≤ i → i < k + n → (∀ j, k ≤ j → j < i → s1 j ≠ 0) → s1 i = s2 i := by
    intro n
    induction n with
    | zero =>
        intro k
        rw [strncmp_from]
        exact iff_of_true rfl fun i h₁ h₂ => absurd h₂ (by omega)
    | succ n ih =>
        intro k
        rw [strncmp_from]
        by_cases hstop : s1 k ≠ s2 k ∨ s1 k = 0
        · -- the loop ends here, and only the bytes here are compared
          rw [if_pos hstop, i8_inj]
          constructor
          · intro heq i h₁ h₂ hbody
            by_cases hik : i = k
            · rw [hik, heq]
            · have hne := hbody k (Nat.le_refl k) (by omega)
              exact absurd (hstop.resolve_left fun hn => hn heq) hne
          · intro h
            exact h k (Nat.le_refl k) (by omega) fun j h₁ h₂ => absurd h₂ (by omega)
        · rw [not_or, not_not] at hstop
          rw [if_neg (not_or.mpr ⟨not_not.mpr hstop.1, hstop.2⟩), ih]
          constructor
          · intro h i h₁ h₂ hbody
            by_cases hik : i = k
            · rw [hik, hstop.1]
            · exact h i (by omega) (by omega) fun j hj₁ hj₂ => hbody j (by omega) hj₂
          · intro h i h₁ h₂ hbody
            refine h i (by omega) (by omega) fun j hj₁ hj₂ => ?_
            by_cases hjk : j = k
            · rw [hjk]
              exact hstop.2
            · exact hbody j (by omega) hj₂
  unfold strncmp
  rw [hfrom]
  constructor
  · exact fun h i hi hbody => h i (Nat.zero_le i) (by omega) fun j _ hj => hbody j hj
  · exact fun h i _ hi hbody => h i (by omega) fun j hj => hbody j (Nat.zero_le j) hj

/-- The text of a string: its bytes up to the terminator. -/
def string_at (s : ℕ → UInt8) : List UInt8 := (List.range (strlen s)).map s

theorem length_string_at (s : ℕ → UInt8) : (string_at s).length = strlen s := by
  unfold string_at
  rw [List.length_map, List.length_range]

/-- The text of a string has no terminator in it. -/
theorem zero_notMem_string_at {s : ℕ → UInt8} (h : strlen s < ADDRESS_SPACE) :
    (0 : UInt8) ∉ string_at s := by
  intro hmem
  obtain ⟨i, hi, hz⟩ := List.mem_map.mp hmem
  rcases strlen_cases s with ⟨-, -, hbody⟩ | hlong
  · exact hbody i (List.mem_range.mp hi) hz
  · omega

/-- Up to its terminator a string is the text stored in a buffer. -/
theorem c_str_string_at {s : ℕ → UInt8} (h : strlen s < ADDRESS_SPACE) {i : ℕ} (hi : i ≤ strlen s) :
    c_str (string_at s) i = s i := by
  have hlen := length_string_at s
  unfold c_str
  by_cases hlt : i < strlen s
  · rw [List.getD_eq_getElem _ _ (by omega)]
    unfold string_at
    rw [List.getElem_map, List.getElem_range]
  · rcases strlen_cases s with ⟨hend, -, -⟩ | hlong
    · have hlast : i = strlen s := by omega
      rw [List.getD_eq_default _ _ (by omega), hlast, hend]
    · omega

/-- Two strings with the same text compare alike. -/
theorem strncmp_text_iff {s1 s2 t : ℕ → UInt8} {n : ℕ}
    (h : ∀ i, (∀ j, j < i → s2 j ≠ 0) → t i = s2 i) : strncmp s1 s2 n = 0 ↔ strncmp s1 t n = 0 := by
  rw [strncmp_eq_zero_iff, strncmp_eq_zero_iff]
  constructor
  · intro hcmp i hi hbody
    rw [h i fun j hj => ?_]
    · exact hcmp i hi hbody
    · rw [← hcmp j (by omega) fun l hl => hbody l (by omega)]
      exact hbody j hj
  · intro hcmp i hi hbody
    -- up to `i` the two agree with the third, byte by byte
    have hsame : ∀ j, j ≤ i → t j = s2 j := by
      intro j
      induction j using Nat.strongRecOn with
      | ind j ih =>
          intro hj
          apply h
          intro l hl
          rw [← ih l hl (by omega), ← hcmp l (by omega) fun m hm => hbody m (by omega)]
          exact hbody l (by omega)
    rw [hcmp i hi hbody, hsame i (Nat.le_refl i)]

end LinuxLikeOS
