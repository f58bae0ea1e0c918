/-
`ece391hello.c` and `ece391counter.c`: the programs that ask for a line.

Each prints its question, waits in a `read`, and goes on with what the read has left, which is where
the definitions begin. The reader gets a line with its line break, so the length that the counter
compares with 2 is that of a choice of one character. Nothing is printed for an empty line, which is
no wrong choice.
-/
import LinuxLikeOS.Grep
import LinuxLikeOS.Numbers
import LinuxLikeOS.Shell

set_option autoImplicit false

namespace LinuxLikeOS

open Kernel TextLayout LineEdit

/-! ## The programs -/

/-- `main` of `ece391hello.c`, from the value and the buffer that `read` has left. -/
def hello_main (cnt : Int) (buf : ℕ → UInt8) (k : Kernel) : Option (Int × Kernel) :=
  if cnt = -1 then
    (ece391_fdputs 1 (c_str (ascii "Can't read name from keyboard.\n")) k).map fun k => (3, k)
  else
    let buf := Function.update buf cnt.toNat 0
    (ece391_fdputs 1 (c_str (ascii "Hello, ")) k).bind fun k =>
    (ece391_fdputs 1 buf k).map fun k => (0, k)

/-- The code of `itoa`. Its `ece391_strrev` leaves an empty or a single character at once, which the
loop of `strrev` does too. -/
def ece391_itoa (value : ℕ) (buf : ℕ → UInt8) (radix : Int) : Option (ℕ → UInt8) := itoa value buf radix

/-- The loop of the counter, with `n` rounds left. -/
def counter_loop : ℕ → ℕ → (ℕ → UInt8) → Kernel → Option Kernel
  | 0, _, _, k => some k
  | n + 1, i, buf, k =>
      (ece391_itoa (i + 1) buf 10).bind fun buf =>
      (ece391_fdputs 1 buf k).bind fun k =>
      (ece391_fdputs 1 (c_str (ascii "\n")) k).bind fun k =>
      counter_loop n (i + 1) buf k

/-- `main` of `ece391counter.c`, from the value and the buffer that `read` has left. -/
def counter_main (cnt : Int) (buf : ℕ → UInt8) (k : Kernel) : Option (Int × Kernel) :=
  if cnt = -1 then
    (ece391_fdputs 1 (c_str (ascii "Can't read the number from keyboard.\n")) k).map fun k => (3, k)
  else
    let buf := Function.update buf cnt.toNat 0
    if ece391_strlen buf > 2 ∨ ece391_strlen buf = 2 ∧ (buf 0 < 0x30 ∨ buf 0 > 0x32) then
      (ece391_fdputs 1 (c_str (ascii "Wrong Choice!\n")) k).map fun k => (0, k)
    else
      let max := if buf 0 = 0x30 then 100 else if buf 0 = 0x31 then 10000
        else if buf 0 = 0x32 then 100000 else 0
      (counter_loop max 0 buf k).map fun k => (0, k)

/-! ## What they are for -/

/-- How far the counter counts, when the line is a choice. -/
def counter_choice : List UInt8 → Option ℕ
  | [] => some 0
  | [c] => if c = 0x30 then some 100 else if c = 0x31 then some 10000
      else if c = 0x32 then some 100000 else none
  | _ => none

/-- The numbers from `i + 1` on, in decimal, each on a line of its own. -/
def numbers (i n : ℕ) : List UInt8 :=
  (List.range' i n).flatMap fun j => numeral 10 (j + 1) ++ ascii "\n"

/-- What the counter prints for a line. -/
def counter_prints (line : List UInt8) : List UInt8 :=
  match counter_choice line with
  | some max => numbers 0 max
  | none => ascii "Wrong Choice!\n"

section

variable {text : List UInt8} {buf : ℕ → UInt8} {k : Kernel} {sheet : Sheet UInt8}

/-- The line with its break, as the programs end it. -/
theorem EnteredLine.textAt (h : EnteredLine buf text) :
    TextAt (Function.update buf (text.length + 1) 0) (text ++ [END_OF_LINE]) := by
  have hmax : MAX_BUF_SIZE = 128 := rfl
  have hlen := h.length_lt
  have hlength : (text ++ [END_OF_LINE]).length = text.length + 1 := by
    rw [List.length_append, List.length_singleton]
  refine ⟨?_, by omega, ?_⟩
  · rw [List.mem_append, not_or]
    exact ⟨h.no_terminator, by decide⟩
  · intro i hi
    by_cases hend : i = text.length + 1
    · rw [hend, Function.update_self, c_str_end (Nat.le_of_eq hlength)]
    · rw [Function.update_of_ne hend, c_str_eq (by omega)]
      by_cases hin : i < text.length
      · rw [List.getElem_append_left hin]
        exact h.bytes i hin
      · obtain rfl : i = text.length := by omega
        rw [h.line_break, List.getElem_append_right (Nat.le_refl _)]
        simp

/-- **`hello` greets by name**, and by the whole line. -/
theorem hello_greets (h : EnteredLine buf text) (hout : Stdout k sheet) :
    ∃ k', hello_main ((text.length + 1 : ℕ) : Int) buf k = some (0, k') ∧
      Stdout k' (printed sheet (ascii "Hello, " ++ (text ++ [END_OF_LINE]))) := by
  have hhello : TextAt (c_str (ascii "Hello, ")) (ascii "Hello, ") := .c_str (by decide) (by decide)
  obtain ⟨k₁, hcall₁, -, hout₁⟩ := hout.fdputs hhello
  obtain ⟨k₂, hcall₂, -, hout₂⟩ := hout₁.fdputs h.textAt
  refine ⟨k₂, ?_, ?_⟩
  · unfold hello_main
    rw [if_neg (by omega), Int.toNat_natCast]
    dsimp only
    rw [hcall₁, Option.bind_some, hcall₂, Option.map_some]
  · rwa [printed_append] at hout₂

/-- A number is written in decimal. -/
theorem ece391_itoa_textAt (value : ℕ) (hv : value < 4294967296) (buf : ℕ → UInt8) :
    ∃ r, ece391_itoa value buf 10 = some r ∧ TextAt r (numeral 10 value) := by
  have hradix : 2 ≤ 10 ∧ 10 ≤ 36 := by decide
  obtain ⟨r, hr, -, hw, hend, -⟩ := itoa_eq hradix hv buf
  have hspec := numeral_spec hradix hv
  have hlen := hspec.length_le
  refine ⟨r, hr, ?_, by omega, ?_⟩
  · intro hmem
    obtain ⟨digit, hdigit, hzero⟩ := hspec.digits 0 hmem
    exact lookup_ne_zero (by omega) hzero.symm
  · intro i hi
    by_cases hlast : i = (numeral 10 value).length
    · rw [hlast, hend, c_str_end (Nat.le_refl _)]
    · rw [hw.get i (by omega), c_str_eq]

/-- **The loop counts**, by induction on the rounds that are left. -/
theorem counter_loop_counts {n i : ℕ} (hn : i + n < 4294967296) (buf : ℕ → UInt8)
    (hout : Stdout k sheet) :
    ∃ k', counter_loop n i buf k = some k' ∧ Stdout k' (printed sheet (numbers i n)) := by
  induction n generalizing i buf k sheet with
  | zero => exact ⟨k, rfl, hout⟩
  | succ n ih =>
      have hbreak : TextAt (c_str (ascii "\n")) (ascii "\n") := .c_str (by decide) (by decide)
      obtain ⟨r, hitoa, htext⟩ := ece391_itoa_textAt (i + 1) (by omega) buf
      obtain ⟨k₁, hcall₁, -, hout₁⟩ := hout.fdputs htext
      obtain ⟨k₂, hcall₂, -, hout₂⟩ := hout₁.fdputs hbreak
      obtain ⟨k', hloop, hout'⟩ := ih (i := i + 1) (by omega) r hout₂
      refine ⟨k', ?_, ?_⟩
      · unfold counter_loop
        rw [hitoa, Option.bind_some, hcall₁, Option.bind_some, hcall₂, Option.bind_some, hloop]
      · unfold numbers at hout' ⊢
        rw [List.range'_succ, List.flatMap_cons]
        rwa [printed_append, printed_append, ← List.append_assoc] at hout'

/-- The tests of the counter take a line for the choice it is. -/
theorem counter_choice_eq_none {first : UInt8} (hfirst : first = c_str (text ++ [END_OF_LINE]) 0) :
    counter_choice text = none ↔
      text.length + 1 > 2 ∨ text.length + 1 = 2 ∧ (first < 0x30 ∨ first > 0x32) := by
  match text with
  | [] => simp [counter_choice]
  | [c] =>
      obtain rfl : first = c := hfirst
      simp only [counter_choice, UInt8.lt_iff_toNat_lt, gt_iff_lt, ← UInt8.toNat_inj,
        List.length_singleton, UInt8.reduceToNat]
      split
      · simp
        omega
      · split
        · simp
          omega
        · split
          · simp
            omega
          · simp
            omega
  | _ :: _ :: rest => simp [counter_choice]

theorem counter_choice_eq_some {first : UInt8} (hfirst : first = c_str (text ++ [END_OF_LINE]) 0) {max : ℕ}
    (hmax : counter_choice text = some max) : max ≤ 100000 ∧
      (if first = 0x30 then 100 else if first = 0x31 then 10000 else if first = 0x32 then 100000 else 0)
        = max := by
  match text, hmax with
  | [], hmax =>
      obtain rfl : first = END_OF_LINE := hfirst
      cases hmax
      exact ⟨by decide, rfl⟩
  | [c], hmax =>
      obtain rfl : first = c := hfirst
      simp only [counter_choice] at hmax
      split_ifs at hmax ⊢ <;> cases hmax <;> exact ⟨by decide, rfl⟩

/-- **The counter counts as far as it was told**, and refuses any other line but the empty one. -/
theorem counter_counts (h : EnteredLine buf text) (hout : Stdout k sheet) :
    ∃ k', counter_main ((text.length + 1 : ℕ) : Int) buf k = some (0, k') ∧
      Stdout k' (printed sheet (counter_prints text)) := by
  have htext := h.textAt
  have hlen : ece391_strlen (Function.update buf (text.length + 1) 0) = text.length + 1 := by
    rw [htext.strlen, List.length_append, List.length_singleton]
  have hfirst : Function.update buf (text.length + 1) 0 0 = c_str (text ++ [END_OF_LINE]) 0 :=
    htext.bytes 0 (Nat.zero_le _)
  have hwrong : TextAt (c_str (ascii "Wrong Choice!\n")) (ascii "Wrong Choice!\n") :=
    .c_str (by decide) (by decide)
  unfold counter_main counter_prints
  rw [if_neg (by omega), Int.toNat_natCast]
  dsimp only
  rw [hlen]
  cases hchoice : counter_choice text with
  | none =>
      obtain ⟨k', hcall, -, hout'⟩ := hout.fdputs hwrong
      rw [if_pos ((counter_choice_eq_none hfirst).mp hchoice), hcall, Option.map_some]
      exact ⟨k', rfl, hout'⟩
  | some max =>
      have hgood : counter_choice text ≠ none := by
        rw [hchoice]
        exact Option.some_ne_none max
      obtain ⟨hle, hmax⟩ := counter_choice_eq_some hfirst hchoice
      have hfits : 0 + max < 4294967296 := by omega
      obtain ⟨k', hloop, hout'⟩ :=
        counter_loop_counts hfits (Function.update buf (text.length + 1) 0) hout
      rw [if_neg (mt (counter_choice_eq_none hfirst).mpr hgood), hmax, hloop, Option.map_some]
      exact ⟨k', rfl, hout'⟩

end

/-- The line "0". -/
theorem counter_counts_demo : ∃ k k',
    new_process (system_execute demo_env (some (ascii "shell b")) (demo_frame 4 4) demo_front) = some k ∧
      counter_main 2 (c_str [0x30, END_OF_LINE]) k = some (0, k') ∧
      Stdout k' (printed .blank (numbers 0 100)) := by
  obtain ⟨k, hk, -, -, -, hout⟩ := demo_process
  have hline : EnteredLine (c_str [0x30, END_OF_LINE]) [0x30] := by
    refine ⟨by decide, by decide, ?_, rfl⟩
    intro i hi
    obtain rfl : i = 0 := Nat.lt_one_iff.mp hi
    rfl
  obtain ⟨k', hmain, hout'⟩ := counter_counts hline hout
  exact ⟨k, k', hk, hmain, hout'⟩

end LinuxLikeOS
