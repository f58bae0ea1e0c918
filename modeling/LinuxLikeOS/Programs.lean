/-
Which files `system_execute` runs.

The only test on the file is the comparison of four bytes with the magic constant. It is
made on a local buffer that `read_data` may not have filled: for a short file, or an inode
that does not exist, it compares what the stack held before. The type of the entry is not
looked at, though the inode field means something for regular files only. And the program
is loaded after the last exit with `-1`, so one that does not fit the user page faults in
the middle of `system_execute`.
-/
import LinuxLikeOS.Commands
import LinuxLikeOS.FileData

set_option autoImplicit false

namespace LinuxLikeOS

open Kernel

/-! ## Programs -/

/-- The entry that a command's name is looked up to. -/
def looked_up (env : Env) (command : Option (List UInt8)) : Option dentry_t :=
  command.bind fun command => read_dentry_by_name env.fs (c_str (command_name command))

/-- A regular file with an inode of the image and at least four bytes. -/
structure RegularFile (fs : file_sys) (dentry : dentry_t) : Prop where
  filetype : dentry.filetype = 2
  inode_num : dentry.inode_num < fs.boot_block.inode_count
  length : ELF_LENGTH ≤ (fs.inode dentry.inode_num).length

instance (fs : file_sys) (dentry : dentry_t) : Decidable (RegularFile fs dentry) :=
  decidable_of_iff (dentry.filetype = 2 ∧ dentry.inode_num < fs.boot_block.inode_count ∧
      ELF_LENGTH ≤ (fs.inode dentry.inode_num).length)
    ⟨fun h => ⟨h.1, h.2.1, h.2.2⟩, fun h => ⟨h.1, h.2, h.3⟩⟩

/-- A regular file whose first four bytes are the magic constant. -/
structure Program (fs : file_sys) (dentry : dentry_t) : Prop extends RegularFile fs dentry where
  elf : ∀ i, i < ELF_LENGTH → file_byte fs (fs.inode dentry.inode_num) i = elf_check i

/-- The four bytes that are compared. -/
def checked_bytes (fs : file_sys) (fr : frame) (dentry : dentry_t) : ℕ → UInt8 :=
  store_bytes (read_data fs dentry.inode_num 0 ELF_LENGTH).2 fr.buf

/-- In a file that has four bytes they are its first four, whatever was in the buffer. -/
theorem RegularFile.checked_bytes {fs : file_sys} {dentry : dentry_t} (h : RegularFile fs dentry)
    (fr : frame) {i : ℕ} (hi : i < ELF_LENGTH) :
    checked_bytes fs fr dentry i = file_byte fs (fs.inode dentry.inode_num) i := by
  have helf : ELF_LENGTH = 4 := rfl
  have hlen := h.length
  have hin : 0 < (fs.inode dentry.inode_num).length := by omega
  unfold LinuxLikeOS.checked_bytes store_bytes
  rw [read_data_inside h.inode_num hin, clipped_of_fits hin (by omega), Nat.min_eq_left (by omega)]
  dsimp only
  rw [List.getD_eq_getElem _ _ (by rw [length_file_bytes]; exact hi)]
  unfold file_bytes
  rw [List.getElem_map, List.getElem_range, Nat.zero_add]

theorem elf_check_ne_zero {i : ℕ} (hi : i < ELF_LENGTH) : elf_check i ≠ 0 := by
  have hall : ∀ i, i < ELF_LENGTH → elf_check i ≠ 0 := by decide
  exact hall i hi

/-- **The checks on the file**: the name is found, and the four bytes are the constant. -/
theorem find_program_eq_some {fs : file_sys} {fr : frame} {filename : List UInt8}
    {dentry : dentry_t} :
    find_program fs fr filename = some dentry ↔
      read_dentry_by_name fs (c_str filename) = some dentry ∧
        ∀ i, i < ELF_LENGTH → checked_bytes fs fr dentry i = elf_check i := by
  have hcmp : ∀ d, strncmp elf_check (checked_bytes fs fr d) ELF_LENGTH = 0 ↔
      ∀ i, i < ELF_LENGTH → checked_bytes fs fr d i = elf_check i := by
    intro d
    rw [strncmp_eq_zero_iff]
    constructor
    · exact fun h i hi => (h i hi fun j hj => elf_check_ne_zero (by omega)).symm
    · exact fun h i hi _ => (h i hi).symm
  unfold find_program
  cases hname : read_dentry_by_name fs (c_str filename) with
  | none => simp
  | some d =>
      dsimp only
      rw [Option.some.injEq]
      by_cases heq : strncmp elf_check (checked_bytes fs fr d) ELF_LENGTH = 0
      · have hne := not_not.mpr heq
        unfold checked_bytes at hne
        rw [if_neg hne, Option.some.injEq]
        constructor
        · rintro rfl
          exact ⟨rfl, (hcmp d).mp heq⟩
        · exact fun h => h.1
      · have hne := heq
        unfold checked_bytes at hne
        rw [if_pos hne]
        refine iff_of_false nofun ?_
        rintro ⟨rfl, h⟩
        exact heq ((hcmp d).mpr h)

/-- A program passes the checks. -/
theorem Program.find {fs : file_sys} {fr : frame} {filename : List UInt8} {dentry : dentry_t}
    (h : Program fs dentry) (hname : read_dentry_by_name fs (c_str filename) = some dentry) :
    find_program fs fr filename = some dentry :=
  find_program_eq_some.mpr
    ⟨hname, fun i hi => (h.toRegularFile.checked_bytes fr hi).trans (h.elf i hi)⟩

/-- A regular file that passes them is a program. -/
theorem RegularFile.program {fs : file_sys} {fr : frame} {filename : List UInt8}
    {dentry : dentry_t} (h : RegularFile fs dentry)
    (hprog : find_program fs fr filename = some dentry) : Program fs dentry :=
  ⟨h, fun i hi => (h.checked_bytes fr hi).symm.trans ((find_program_eq_some.mp hprog).2 i hi)⟩

/-! ## Starting a program -/

/-- Every byte the loader stores is on a mapped page, once the slot is mapped. -/
def fits_page (env : Env) (k : Kernel) (pid : ℕ) (dentry : dentry_t) : Prop :=
  loadable env.link (process_page pid k.paging)
    (read_data env.fs dentry.inode_num 0 FOUR_MB).2.length = true

theorem free_pid_isSome {k : Kernel} :
    (∃ pid, free_pid k = some pid) ↔ ∃ pid, pid < NUM_PROCESSES ∧ k.cur_processes pid = 0 := by
  constructor
  · rintro ⟨pid, hpid⟩
    exact ⟨pid, free_pid_spec hpid⟩
  · rintro ⟨pid, hlt, hzero⟩
    apply Option.isSome_iff_exists.mp
    unfold free_pid
    rw [List.find?_isSome]
    exact ⟨pid, List.mem_range.mpr hlt, decide_eq_true hzero⟩

/-- An `execute` that passes the checks starts the process when it can be loaded, and
faults when it cannot. -/
theorem system_execute_passes {env : Env} {fr : frame} {command : List UInt8} {k : Kernel}
    {dentry : dentry_t} {pid : ℕ}
    (hprog : find_program env.fs fr (command_name command) = some dentry)
    (hfree : free_pid k = some pid) :
    (fits_page env k pid dentry → ∃ eip k', system_execute env (some command) fr k
        = some (.iret eip, k')) ∧
      (¬ fits_page env k pid dentry → system_execute env (some command) fr k = none) := by
  replace hfree : free_pid { k with kernel_mem :=
    (store_string env.link.empty_string (command_args command) k.kernel_mem) } = some pid := hfree
  unfold system_execute
  simp only [hprog, hfree]
  constructor
  · intro hfits
    exact ⟨_, _, if_pos hfits⟩
  · intro hfits
    exact if_neg hfits

/-- When a slot is free, an entry that passes the comparison is a regular file with four
bytes, and its program fits the user page. -/
def ProgramFits (env : Env) (fr : frame) (k : Kernel) (command : Option (List UInt8)) : Prop :=
  ∀ line dentry pid, command = some line →
    find_program env.fs fr (command_name line) = some dentry → free_pid k = some pid →
    RegularFile env.fs dentry ∧ fits_page env k pid dentry

/-- A process to start is an entry that passes the checks and a free slot. -/
theorem started_pid_eq_some {env : Env} {fr : frame} {k : Kernel} {command : Option (List UInt8)}
    {pid : ℕ} : started_pid env fr command k = some pid ↔
      ∃ line dentry, command = some line ∧
        find_program env.fs fr (command_name line) = some dentry ∧ free_pid k = some pid := by
  unfold started_pid
  cases command with
  | none => simp
  | some line =>
      dsimp only
      cases hprog : find_program env.fs fr (command_name line) with
      | none =>
          refine iff_of_false nofun ?_
          rintro ⟨_, dentry, hline, hsome, -⟩
          rw [← Option.some.inj hline, hprog] at hsome
          cases hsome
      | some dentry =>
          dsimp only
          constructor
          · exact fun hfree => ⟨line, dentry, rfl, hprog, hfree⟩
          · exact fun ⟨_, _, _, _, hfree⟩ => hfree

end LinuxLikeOS
