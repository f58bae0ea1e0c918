/-
The command line.

A command is spaces, the name of a program, spaces, the argument text and spaces again.
`system_execute` finds the parts with three loops, and the loop that copies the name uses
one index for two things: its place in the command, and the bound on the length of the
name. Spaces in front of the name therefore count as part of its 32 bytes. A name that
reaches the bound is cut there without a word, the space behind it is not looked for, and
the arguments are lost.
-/
import LinuxLikeOS.Effects
import LinuxLikeOS.Lookup
import Mathlib.Data.List.DropRight

set_option autoImplicit false

namespace LinuxLikeOS

open Kernel

/-! ## The parts of a command -/

def is_space (c : UInt8) : Bool := c = SPACE_ASCII

def is_word (c : UInt8) : Bool := c ≠ SPACE_ASCII

/-- The number of spaces in front. -/
def leading_spaces (command : List UInt8) : ℕ := (command.takeWhile is_space).length

/-- The first maximal run of other bytes. -/
def first_word (command : List UInt8) : List UInt8 := (command.dropWhile is_space).takeWhile is_word

/-- The text behind it, without the spaces at either end. -/
def rest_text (command : List UInt8) : List UInt8 :=
  (((command.dropWhile is_space).dropWhile is_word).dropWhile is_space).rdropWhile is_space

/-! ## The loops -/

theorem skip_spaces_eq (l : List UInt8) (i : ℕ) :
    skip_spaces l i = (l.dropWhile is_space, i + (l.takeWhile is_space).length) := by
  induction l generalizing i with
  | nil => rfl
  | cons c l ih =>
      rw [skip_spaces]
      by_cases hc : c = SPACE_ASCII
      · have hp : is_space c = true := decide_eq_true hc
        rw [if_pos hc, ih, List.dropWhile_cons_of_pos hp, List.takeWhile_cons_of_pos hp,
          List.length_cons]
        congr 1
        omega
      · have hp : ¬ is_space c = true := by simpa [is_space] using hc
        rw [if_neg hc, List.dropWhile_cons_of_neg hp, List.takeWhile_cons_of_neg hp]
        rfl

/-- The name is the first word, cut where the index reaches the bound. -/
theorem scan_filename_name {l : List UInt8} (h : (0 : UInt8) ∉ l) (i : ℕ) :
    (scan_filename l i).1 = (l.takeWhile is_word).take (FILENAME_LEN - i) := by
  induction l generalizing i with
  | nil =>
      rw [scan_filename, List.takeWhile_nil, List.take_nil]
  | cons c l ih =>
      have hc : c ≠ 0 := fun hz => h (hz ▸ List.mem_cons_self)
      have hrest : (0 : UInt8) ∉ l := fun hz => h (List.mem_cons_of_mem _ hz)
      rw [scan_filename]
      by_cases hi : i < FILENAME_LEN
      · rw [if_neg (by rintro (hz | hlt); exacts [hc hz, hlt hi])]
        by_cases hspace : c = SPACE_ASCII
        · have hp : ¬ is_word c = true := by simpa [is_word] using hspace
          rw [if_pos hspace, List.takeWhile_cons_of_neg hp, List.take_nil]
        · have hp : is_word c = true := by simpa [is_word] using hspace
          have hsucc : FILENAME_LEN - i = FILENAME_LEN - (i + 1) + 1 := by omega
          rw [if_neg hspace, List.takeWhile_cons_of_pos hp, hsucc, List.take_succ_cons]
          exact congrArg (List.cons c) (ih hrest (i + 1))
      · have hzero : FILENAME_LEN - i = 0 := by omega
        rw [if_pos (Or.inr hi), hzero, List.take_zero]

/-- The arguments are looked for when the word ends before the bound. -/
theorem scan_filename_args {l : List UInt8} (h : (0 : UInt8) ∉ l) (i : ℕ) :
    ((scan_filename l i).2).getD [] =
      if i + (l.takeWhile is_word).length < FILENAME_LEN then
        (l.dropWhile is_word).dropWhile is_space
      else [] := by
  induction l generalizing i with
  | nil =>
      rw [scan_filename]
      simp
  | cons c l ih =>
      have hc : c ≠ 0 := fun hz => h (hz ▸ List.mem_cons_self)
      have hrest : (0 : UInt8) ∉ l := fun hz => h (List.mem_cons_of_mem _ hz)
      rw [scan_filename]
      by_cases hi : i < FILENAME_LEN
      · rw [if_neg (by rintro (hz | hlt); exacts [hc hz, hlt hi])]
        by_cases hspace : c = SPACE_ASCII
        · have hp : ¬ is_word c = true := by simpa [is_word] using hspace
          have hq : is_space c = true := decide_eq_true hspace
          rw [if_pos hspace, List.takeWhile_cons_of_neg hp, List.dropWhile_cons_of_neg hp,
            List.dropWhile_cons_of_pos hq, skip_spaces_eq, if_pos (by simpa using hi)]
          rfl
        · have hp : is_word c = true := by simpa [is_word] using hspace
          rw [if_neg hspace, List.takeWhile_cons_of_pos hp, List.dropWhile_cons_of_pos hp,
            List.length_cons, ← Nat.add_assoc, Nat.add_right_comm]
          exact ih hrest (i + 1)
      · rw [if_pos (Or.inr hi), if_neg (by omega)]
        rfl

theorem only_spaces_iff {l : List UInt8} (h : (0 : UInt8) ∉ l) :
    only_spaces l = true ↔ ∀ c, c ∈ l → is_space c = true := by
  induction l with
  | nil => simp [only_spaces]
  | cons c l ih =>
      have hc : c ≠ 0 := fun hz => h (hz ▸ List.mem_cons_self)
      have hrest : (0 : UInt8) ∉ l := fun hz => h (List.mem_cons_of_mem _ hz)
      rw [only_spaces, if_neg hc, List.forall_mem_cons]
      by_cases hspace : c = SPACE_ASCII
      · have hq : is_space c = true := decide_eq_true hspace
        rw [if_pos hspace, ih hrest]
        exact ⟨fun hall => ⟨hq, hall⟩, fun hall => hall.2⟩
      · rw [if_neg hspace]
        refine iff_of_false (by decide) fun hall => hspace ?_
        exact of_decide_eq_true hall.1

/-- Dropping from the right does not reach the first element while one behind it stays. -/
theorem rdropWhile_cons {p : UInt8 → Bool} {c : UInt8} {l : List UInt8}
    (hall : ¬ ∀ x, x ∈ c :: l → p x = true) : (c :: l).rdropWhile p = c :: l.rdropWhile p := by
  induction l using List.reverseRecOn with
  | nil =>
      have hc : ¬ p c = true := by simpa using hall
      rw [List.rdropWhile_singleton, if_neg hc, List.rdropWhile_nil]
  | append_singleton l x ih =>
      rw [← List.cons_append]
      by_cases hx : p x = true
      · -- the last one goes, and the one that stays is among the others
        have hrest : ¬ ∀ y, y ∈ c :: l → p y = true := by
          intro h
          apply hall
          intro y hy
          rw [← List.cons_append, List.mem_append, List.mem_singleton] at hy
          rcases hy with hy | rfl
          · exact h y hy
          · exact hx
        rw [List.rdropWhile_concat_pos _ _ _ hx, List.rdropWhile_concat_pos _ _ _ hx]
        exact ih hrest
      · rw [List.rdropWhile_concat_neg _ _ _ hx, List.rdropWhile_concat_neg _ _ _ hx]
        rfl

/-- The arguments are copied without the spaces at the end. -/
theorem copy_args_eq {l : List UInt8} (h : (0 : UInt8) ∉ l) :
    copy_args l = l.rdropWhile is_space := by
  induction l with
  | nil => rfl
  | cons c l ih =>
      have hc : c ≠ 0 := fun hz => h (hz ▸ List.mem_cons_self)
      have hrest : (0 : UInt8) ∉ l := fun hz => h (List.mem_cons_of_mem _ hz)
      rw [copy_args, if_neg hc, ih hrest]
      by_cases hall : ∀ x, x ∈ c :: l → is_space x = true
      · have hspace : c = SPACE_ASCII := of_decide_eq_true (hall c List.mem_cons_self)
        rw [if_pos ⟨hspace, (only_spaces_iff h).mpr hall⟩, List.rdropWhile_eq_nil_iff.mpr hall]
      · rw [if_neg fun hstop => hall ((only_spaces_iff h).mp hstop.2), rdropWhile_cons hall]

/-! ## The parser -/

theorem not_mem_dropWhile {p : UInt8 → Bool} {l : List UInt8} (h : (0 : UInt8) ∉ l) :
    (0 : UInt8) ∉ l.dropWhile p :=
  fun hz => h ((List.dropWhile_sublist p).subset hz)

/-- **The name that is looked up** is the first word without what does not fit in the bytes
the leading spaces leave. -/
theorem command_name_eq {command : List UInt8} (h : (0 : UInt8) ∉ command) :
    command_name command
      = (first_word command).take (FILENAME_LEN - leading_spaces command) := by
  unfold command_name
  dsimp only
  rw [skip_spaces_eq, scan_filename_name (not_mem_dropWhile h), Nat.zero_add]
  rfl

/-- **The argument text** is the rest of the command when the word ends before the bound, and
empty otherwise. -/
theorem command_args_eq {command : List UInt8} (h : (0 : UInt8) ∉ command) :
    command_args command =
      if leading_spaces command + (first_word command).length < FILENAME_LEN then
        rest_text command
      else [] := by
  have hscan := scan_filename_args (not_mem_dropWhile (p := is_space) h) (leading_spaces command)
  have hargs : command_args command
      = copy_args (((scan_filename (command.dropWhile is_space) (leading_spaces command)).2).getD []) := by
    unfold command_args
    dsimp only
    rw [skip_spaces_eq, Nat.zero_add]
    show _ = copy_args ((scan_filename (command.dropWhile is_space)
      (command.takeWhile is_space).length).2.getD [])
    cases (scan_filename (command.dropWhile is_space) (command.takeWhile is_space).length).2 <;> rfl
  rw [hargs, hscan]
  by_cases hlt : leading_spaces command + (first_word command).length < FILENAME_LEN
  · have hlt' := hlt
    unfold first_word at hlt'
    rw [if_pos hlt, if_pos hlt',
      copy_args_eq (not_mem_dropWhile (not_mem_dropWhile (not_mem_dropWhile h)))]
    rfl
  · have hlt' := hlt
    unfold first_word at hlt'
    rw [if_neg hlt, if_neg hlt']
    rfl

/-! ## Exact parsing -/

/-- What a caller of `system_execute` may rely on: a first word of 1 to 32 bytes is the name
that is looked up, what is started is the entry it names, and the rest is the argument text that
is stored; any other word is refused, and nothing is run. -/
structure ParsedExactly (env : Env) (fr : frame) (k : Kernel) (command : List UInt8) : Prop where
  name : 0 < (first_word command).length → (first_word command).length ≤ FILENAME_LEN →
    command_name command = first_word command
  entry : 0 < (first_word command).length → (first_word command).length ≤ FILENAME_LEN →
    ∀ eip k', system_execute env (some command) fr k = some (.iret eip, k') →
      ∃ dentry, find_program env.fs fr (first_word command) = some dentry ∧
        eip = entry_point env.fs dentry fr
  args : 0 < (first_word command).length → (first_word command).length ≤ FILENAME_LEN →
    command_args command = rest_text command
  stored : 0 < (first_word command).length → (first_word command).length ≤ FILENAME_LEN →
    ∀ c k', system_execute env (some command) fr k = some (c, k') →
      ∀ i, i ≤ (rest_text command).length →
        k'.kernel_mem (env.link.empty_string + i) = c_str (rest_text command) i
  refused : first_word command = [] ∨ FILENAME_LEN < (first_word command).length →
    ∃ mem, system_execute env (some command) fr k = some (.ret (-1), { k with kernel_mem := mem })

/-- The leading spaces and a word that fits the name field stay below the bound, or the word
reaches it exactly and has no arguments. Of a word that does not fit the field, the part
that is looked up cannot be started. -/
structure CommandFits (env : Env) (fr : frame) (k : Kernel) (command : List UInt8) : Prop where
  word : 0 < (first_word command).length → (first_word command).length ≤ FILENAME_LEN →
    leading_spaces command + (first_word command).length < FILENAME_LEN ∨
      (leading_spaces command + (first_word command).length = FILENAME_LEN ∧
        rest_text command = [])
  long_word : FILENAME_LEN < (first_word command).length →
    find_program env.fs fr ((first_word command).take (FILENAME_LEN - leading_spaces command)) = none ∨
      free_pid k = none

/-- The literal holds the arguments after every `execute` that returns or starts a process. -/
theorem system_execute_stores {env : Env} {fr : frame} {command : List UInt8} {k k' : Kernel}
    {c : Control} (h : system_execute env (some command) fr k = some (c, k')) {i : ℕ}
    (hi : i ≤ (command_args command).length) :
    k'.kernel_mem (env.link.empty_string + i) = c_str (command_args command) i := by
  have hstore : execute_mem env (some command) k.kernel_mem (env.link.empty_string + i)
      = c_str (command_args command) i := by
    unfold execute_mem store_string
    dsimp only
    rw [if_pos (by omega), Nat.add_sub_cancel_left]
  cases hpid : started_pid env fr (some command) k with
  | none =>
      obtain ⟨-, rfl⟩ := system_execute_fails h hpid
      exact hstore
  | some pid =>
      obtain ⟨eip, -, rfl⟩ := system_execute_starts h hpid
      rw [(create_process_memory pid _ _ _ _).2.1]
      exact hstore

theorem started_pid_eq_none {env : Env} {fr : frame} {command : List UInt8} {k : Kernel} :
    started_pid env fr (some command) k = none ↔
      find_program env.fs fr (command_name command) = none ∨ free_pid k = none := by
  unfold started_pid
  dsimp only
  cases find_program env.fs fr (command_name command) with
  | none => simp
  | some dentry => simp

/-- An `execute` that passes the checks and finds a slot does not. -/
theorem system_execute_not_refused {env : Env} {fr : frame} {command : List UInt8} {k : Kernel}
    {dentry : dentry_t} {pid : ℕ}
    (hprog : find_program env.fs fr (command_name command) = some dentry)
    (hfree : free_pid k = some pid) (k' : Kernel) :
    system_execute env (some command) fr k ≠ some (.ret (-1), k') := by
  intro h
  have hpid : started_pid env fr (some command) k = some pid := by
    unfold started_pid
    simp only [hprog, hfree]
  obtain ⟨eip, hc, -⟩ := system_execute_starts h hpid
  cases hc

/-- What an `execute` starts is the program the parser's name is looked up to. -/
theorem system_execute_entry {env : Env} {fr : frame} {command : List UInt8} {k k' : Kernel}
    {eip : ℕ} (h : system_execute env (some command) fr k = some (.iret eip, k')) :
    ∃ dentry, find_program env.fs fr (command_name command) = some dentry ∧
      eip = entry_point env.fs dentry fr := by
  unfold system_execute at h
  dsimp only at h
  cases hprog : find_program env.fs fr (command_name command) with
  | none =>
      simp only [hprog, Option.some.injEq, Prod.mk.injEq, reduceCtorEq, false_and] at h
  | some dentry =>
      refine ⟨dentry, rfl, ?_⟩
      rw [hprog] at h
      dsimp only at h
      split at h
      · simp only [Option.some.injEq, Prod.mk.injEq, reduceCtorEq, false_and] at h
      · split at h
        · exact (Control.iret.inj (Prod.mk.inj (Option.some.inj h)).1).symm
        · cases h

/-- There is no file without a name. -/
theorem find_program_empty (fs : file_sys) (fr : frame) : find_program fs fr [] = none := by
  have hlen : strlen (c_str []) = 0 := strlen_c_str (Nat.zero_le _) List.not_mem_nil
  unfold find_program read_dentry_by_name
  rw [if_pos hlen]

end LinuxLikeOS
