/-
What the kernel stores without a look at the address.

Three stores go where nobody has checked that they may. The arguments of a command are copied
over a string literal of one byte; a program is loaded into what is left of its page, however
long it is; and a `read` stores at the pointer its caller has passed. A byte on a page that is
not mapped raises a page fault in the kernel. A byte on any other page is stored, on top of what
the kernel has there.

What that is, the linker has decided. `poke addr bytes k` stands for it: the kernel `k` after
`bytes` have been stored at `addr` outside the user page. Nothing is assumed of `poke`, so a
result that holds for every one of them holds wherever the variables are.
-/
import LinuxLikeOS.Loader

set_option autoImplicit false

namespace LinuxLikeOS

open Kernel

/-! ## The stores -/

/-- All of `n` bytes at `addr` are in the user page. -/
def InUserPage (addr n : ℕ) : Prop :=
  n = 0 ∨ (USER_ADDR_INDEX * FOUR_MB ≤ addr ∧ addr + n ≤ USER_ADDR_INDEX * FOUR_MB + FOUR_MB)

instance (addr n : ℕ) : Decidable (InUserPage addr n) := inferInstanceAs (Decidable (_ ∨ _))

/-- The first of `n` bytes at `addr` that is on a page that is not mapped. -/
def first_unmapped (link : Linkage) (pg : Paging) (addr n : ℕ) : Option ℕ :=
  (List.range n).find? fun i => (translate link pg (addr + i)).isNone

/-- Bytes stored at mapped addresses. Those in the user page are none of the kernel's. -/
def overwritten (poke : ℕ → List UInt8 → Kernel → Kernel) (addr : ℕ) (bytes : List UInt8)
    (k : Kernel) : Kernel :=
  if InUserPage addr bytes.length then k else poke addr bytes k

/-- How a row of stores ends. -/
inductive StoresEnd
  | done (k : Kernel)
  | page_fault (location : ℕ) (k : Kernel)

/-- The bytes stored one after the other, up to a fault. -/
def store_mapped (link : Linkage) (poke : ℕ → List UInt8 → Kernel → Kernel) (addr : ℕ)
    (bytes : List UInt8) (k : Kernel) : StoresEnd :=
  match first_unmapped link k.paging addr bytes.length with
  | none => .done (overwritten poke addr bytes k)
  | some i => .page_fault (addr + i) (overwritten poke addr (bytes.take i) k)

/-- Stores that hit nothing, for evaluating the model. -/
def harmless (_ : ℕ) (_ : List UInt8) (k : Kernel) : Kernel := k

/-! ## `system_execute` -/

/-- How `system_execute` ends. -/
inductive Outcome
  | refused (k : Kernel)
  | started (eip : ℕ) (k : Kernel)
  /-- The loader has faulted. -/
  | page_fault (location : ℕ) (k : Kernel)

/-- The argument text of a command has room behind the literal. -/
def ArgsFit (link : Linkage) (command : Option (List UInt8)) : Prop :=
  (command_args (command.getD [])).length ≤ link.args_room

instance (link : Linkage) (command : Option (List UInt8)) : Decidable (ArgsFit link command) :=
  inferInstanceAs (Decidable (_ ≤ _))

/-- The stores of the parser. -/
def store_args (link : Linkage) (poke : ℕ → List UInt8 → Kernel → Kernel) (command : List UInt8)
    (k : Kernel) : Kernel :=
  if ArgsFit link (some command) then
    { k with kernel_mem := store_string link.empty_string (command_args command) k.kernel_mem }
  else poke link.empty_string (command_args command ++ [0]) k

/-- `system_execute` with all that it stores. The slot is taken and its frame is mapped when the
loader starts, and a fault leaves them so. -/
def execute_outcome (env : Env) (poke : ℕ → List UInt8 → Kernel → Kernel)
    (command : Option (List UInt8)) (fr : frame) (k : Kernel) : Outcome :=
  match command with
  | none => .refused k
  | some command =>
      let k := store_args env.link poke command k
      match find_program env.fs fr (command_name command) with
      | none => .refused k
      | some dentry =>
          match free_pid k with
          | none => .refused k
          | some pid =>
              let program := (read_data env.fs dentry.inode_num 0 FOUR_MB).2
              match store_mapped env.link poke VIRTUAL_ADDR program (claim_slot pid k) with
              | .page_fault location k => .page_fault location k
              | .done k =>
                  let eip := entry_point env.fs dentry fr
                  .started eip (create_process pid env.link.empty_string eip fr k)

section

variable {env : Env} {poke : ℕ → List UInt8 → Kernel → Kernel} {fr : frame} {k : Kernel}
  {command : Option (List UInt8)} {dentry : dentry_t} {pid : ℕ}

/-! ## Where the stores go -/

theorem first_unmapped_eq_none {link : Linkage} {pg : Paging} {addr n : ℕ} :
    first_unmapped link pg addr n = none ↔ ∀ i, i < n → (translate link pg (addr + i)).isSome = true := by
  unfold first_unmapped
  rw [List.find?_eq_none]
  constructor
  · intro h i hi
    simpa [Option.isSome_iff_ne_none] using h i (List.mem_range.mpr hi)
  · intro h i hi
    simpa [Option.isSome_iff_ne_none] using h i (List.mem_range.mp hi)

/-- The first unmapped byte is where the mapped ones end. -/
theorem first_unmapped_eq_some {link : Linkage} {pg : Paging} {addr n i : ℕ} (hi : i < n)
    (hmapped : ∀ j, j < i → (translate link pg (addr + j)).isSome = true)
    (hno : translate link pg (addr + i) = none) : first_unmapped link pg addr n = some i := by
  unfold first_unmapped
  rw [List.find?_range_eq_some]
  refine ⟨?_, List.mem_range.mpr hi, ?_⟩
  · rw [hno]
    rfl
  · intro j hj
    simpa using hmapped j hj

theorem loadable_iff {link : Linkage} {pg : Paging} {n : ℕ} :
    loadable link pg n = true ↔ first_unmapped link pg VIRTUAL_ADDR n = none := by
  unfold loadable
  rw [first_unmapped_eq_none, List.all_eq_true]
  exact ⟨fun h i hi => h i (List.mem_range.mpr hi), fun h i hi => h i (List.mem_range.mp hi)⟩

/-- The whole user page is mapped while a process runs. -/
theorem UserPage.first_unmapped {pg : Paging} {p addr n : ℕ} (h : UserPage pg p) (link : Linkage)
    (hin : InUserPage addr n) : first_unmapped link pg addr n = none := by
  rw [first_unmapped_eq_none]
  intro i hi
  rcases hin with rfl | ⟨hlow, hhigh⟩
  · exact absurd hi (Nat.not_lt_zero i)
  · have haddr : addr + i = USER_ADDR_INDEX * FOUR_MB + (addr + i - USER_ADDR_INDEX * FOUR_MB) := by
      omega
    rw [haddr, h.translate link (by omega)]
    rfl

/-- **Stores in the user page** neither fault nor reach the kernel. -/
theorem store_mapped_user_page {link : Linkage} {p addr : ℕ} {bytes : List UInt8}
    (hpage : UserPage k.paging p) (hin : InUserPage addr bytes.length) :
    store_mapped link poke addr bytes k = .done k := by
  unfold store_mapped overwritten
  rw [hpage.first_unmapped link hin]
  dsimp only
  rw [if_pos hin]

/-! ## Arguments with room -/

/-- The parser of a command whose arguments have room. -/
theorem store_args_fit {line : List UInt8} (hargs : ArgsFit env.link (some line)) :
    store_args env.link poke line k
      = { k with kernel_mem := execute_mem env (some line) k.kernel_mem } := by
  unfold store_args
  rw [if_pos hargs]
  rfl

theorem execute_outcome_refused (hargs : ArgsFit env.link command)
    (hnone : started_pid env fr command k = none) :
    execute_outcome env poke command fr k
      = .refused { k with kernel_mem := execute_mem env command k.kernel_mem } := by
  unfold execute_outcome
  unfold started_pid at hnone
  cases command with
  | none => rfl
  | some line =>
      dsimp only at hnone ⊢
      rw [store_args_fit hargs]
      cases hprog : find_program env.fs fr (command_name line) with
      | none => rfl
      | some dentry =>
          rw [hprog] at hnone
          -- the search reads the process table only
          replace hnone : free_pid { k with kernel_mem := execute_mem env (some line) k.kernel_mem }
            = none := hnone
          simp only [hnone]

/-- What is left of an `execute` that passes the checks. -/
theorem execute_outcome_passes {line : List UInt8} (hargs : ArgsFit env.link (some line))
    (hprog : find_program env.fs fr (command_name line) = some dentry)
    (hfree : free_pid k = some pid) :
    execute_outcome env poke (some line) fr k =
      match store_mapped env.link poke VIRTUAL_ADDR (read_data env.fs dentry.inode_num 0 FOUR_MB).2
          (claim_slot pid { k with kernel_mem := execute_mem env (some line) k.kernel_mem }) with
      | .page_fault location k => .page_fault location k
      | .done k => .started (entry_point env.fs dentry fr)
          (create_process pid env.link.empty_string (entry_point env.fs dentry fr) fr k) := by
  replace hfree : free_pid { k with kernel_mem := execute_mem env (some line) k.kernel_mem }
    = some pid := hfree
  unfold execute_outcome
  dsimp only
  rw [store_args_fit hargs]
  simp only [hprog, hfree]

variable (poke) in
/-- It starts the process when every byte that is loaded is mapped, and faults when one is not. -/
theorem execute_outcome_loads {line : List UInt8} (hargs : ArgsFit env.link (some line))
    (hprog : find_program env.fs fr (command_name line) = some dentry)
    (hfree : free_pid k = some pid) :
    (fits_page env k pid dentry → ∃ eip k', execute_outcome env poke (some line) fr k
        = .started eip k') ∧
      (¬ fits_page env k pid dentry → ∃ location k', execute_outcome env poke (some line) fr k
        = .page_fault location k') := by
  rw [execute_outcome_passes hargs hprog hfree]
  unfold fits_page store_mapped
  rw [loadable_iff]
  constructor
  · intro hfits
    replace hfits : first_unmapped env.link (claim_slot pid
      { k with kernel_mem := execute_mem env (some line) k.kernel_mem }).paging VIRTUAL_ADDR
        (read_data env.fs dentry.inode_num 0 FOUR_MB).2.length = none := hfits
    rw [hfits]
    exact ⟨_, _, rfl⟩
  · intro hno
    obtain ⟨i, hi⟩ := Option.ne_none_iff_exists'.mp hno
    replace hi : first_unmapped env.link (claim_slot pid
      { k with kernel_mem := execute_mem env (some line) k.kernel_mem }).paging VIRTUAL_ADDR
        (read_data env.fs dentry.inode_num 0 FOUR_MB).2.length = some i := hi
    rw [hi]
    exact ⟨_, _, rfl⟩

/-- The bytes that a command loads. -/
def loaded_program (env : Env) (fr : frame) (k : Kernel) (command : Option (List UInt8)) :
    Option (List UInt8) :=
  match command with
  | none => none
  | some command =>
      match find_program env.fs fr (command_name command), free_pid k with
      | some dentry, some _ => some (read_data env.fs dentry.inode_num 0 FOUR_MB).2
      | _, _ => none

/-- The program that a command starts has room in its page. -/
def ProgramRoom (env : Env) (fr : frame) (k : Kernel) (command : Option (List UInt8)) : Prop :=
  ∀ program ∈ loaded_program env fr k command, program.length ≤ PROGRAM_ROOM

instance (env : Env) (fr : frame) (k : Kernel) (command : Option (List UInt8)) :
    Decidable (ProgramRoom env fr k command) := inferInstanceAs (Decidable (∀ _ ∈ _, _))

variable (poke) in
/-- **With room for the arguments and for the program it is `system_execute`.** -/
theorem execute_outcome_eq (hargs : ArgsFit env.link command) (hroom : ProgramRoom env fr k command)
    (hsize : pde_kb.page_size.get (k.paging.page_directory USER_ADDR_INDEX) = 1) :
    (∃ k', execute_outcome env poke command fr k = .refused k' ∧
        system_execute env command fr k = some (.ret (-1), k')) ∨
      ∃ eip k', execute_outcome env poke command fr k = .started eip k' ∧
        system_execute env command fr k = some (.iret eip, k') := by
  cases hpid : started_pid env fr command k with
  | none =>
      exact Or.inl ⟨_, execute_outcome_refused hargs hpid, system_execute_refuses hpid⟩
  | some pid =>
      right
      obtain ⟨line, dentry, rfl, hprog, hfree⟩ := started_pid_eq_some.mp hpid
      have hlen : (read_data env.fs dentry.inode_num 0 FOUR_MB).2.length ≤ PROGRAM_ROOM := by
        apply hroom
        simp only [loaded_program, hprog, hfree, Option.mem_some]
      have hpage : UserPage (process_page pid k.paging) pid :=
        UserPage.process_page (free_pid_spec hfree).1 hsize
      have hin : InUserPage VIRTUAL_ADDR (read_data env.fs dentry.inode_num 0 FOUR_MB).2.length := by
        have hstart : USER_ADDR_INDEX * FOUR_MB ≤ VIRTUAL_ADDR := by decide
        have hend : VIRTUAL_ADDR + PROGRAM_ROOM = USER_ADDR_INDEX * FOUR_MB + FOUR_MB := by decide
        exact Or.inr ⟨hstart, by omega⟩
      rw [execute_outcome_passes hargs hprog hfree, store_mapped_user_page hpage hin]
      refine ⟨_, _, rfl, ?_⟩
      have hfits : loadable env.link (process_page pid k.paging)
          (read_data env.fs dentry.inode_num 0 FOUR_MB).2.length = true :=
        loadable_iff.mpr (hpage.first_unmapped env.link hin)
      replace hfree : free_pid { k with kernel_mem :=
        (store_string env.link.empty_string (command_args line) k.kernel_mem) } = some pid := hfree
      unfold system_execute
      simp only [hprog, hfree]
      exact if_pos hfits

variable (poke) in
/-- **A program that is longer than the room faults** when the page behind its own is not mapped,
and the slot it was given is in use. -/
theorem execute_outcome_faults {line : List UInt8} (hargs : ArgsFit env.link (some line))
    (hprog : find_program env.fs fr (command_name line) = some dentry)
    (hfree : free_pid k = some pid)
    (hsize : pde_kb.page_size.get (k.paging.page_directory USER_ADDR_INDEX) = 1)
    (hlong : PROGRAM_ROOM < (read_data env.fs dentry.inode_num 0 FOUR_MB).2.length)
    (hend : translate env.link (process_page pid k.paging) (VIRTUAL_ADDR + PROGRAM_ROOM) = none) :
    execute_outcome env poke (some line) fr k = .page_fault (VIRTUAL_ADDR + PROGRAM_ROOM)
      (claim_slot pid { k with kernel_mem := execute_mem env (some line) k.kernel_mem }) := by
  have hpage : UserPage (process_page pid k.paging) pid :=
    UserPage.process_page (free_pid_spec hfree).1 hsize
  have hfirst : first_unmapped env.link (process_page pid k.paging) VIRTUAL_ADDR
      (read_data env.fs dentry.inode_num 0 FOUR_MB).2.length = some PROGRAM_ROOM := by
    refine first_unmapped_eq_some hlong (fun j hj => ?_) hend
    rw [program_translation hpage env.link hj]
    rfl
  -- what was stored before the fault is in the page
  have hin : InUserPage VIRTUAL_ADDR
      ((read_data env.fs dentry.inode_num 0 FOUR_MB).2.take PROGRAM_ROOM).length := by
    rw [List.length_take, Nat.min_eq_left (Nat.le_of_lt hlong)]
    decide
  rw [execute_outcome_passes hargs hprog hfree]
  unfold store_mapped overwritten
  replace hfirst : first_unmapped env.link (claim_slot pid
    { k with kernel_mem := execute_mem env (some line) k.kernel_mem }).paging VIRTUAL_ADDR
      (read_data env.fs dentry.inode_num 0 FOUR_MB).2.length = some PROGRAM_ROOM := hfirst
  rw [hfirst]
  dsimp only
  rw [if_pos hin]

/-! ## Which commands start a process -/

/-- What a caller of `system_execute` may rely on: a process is started exactly when the name
is that of a program and a slot is free, and in every other case `-1` is returned and nothing
but string memory has changed. -/
structure StartsPrograms (env : Env) (poke : ℕ → List UInt8 → Kernel → Kernel) (fr : frame)
    (k : Kernel) (command : Option (List UInt8)) : Prop where
  starts_iff : (∃ eip k', execute_outcome env poke command fr k = .started eip k') ↔
    (∃ dentry, looked_up env command = some dentry ∧ Program env.fs dentry) ∧
      ∃ pid, pid < NUM_PROCESSES ∧ k.cur_processes pid = 0
  otherwise : ¬ ((∃ dentry, looked_up env command = some dentry ∧ Program env.fs dentry) ∧
      ∃ pid, pid < NUM_PROCESSES ∧ k.cur_processes pid = 0) →
    ∃ mem, execute_outcome env poke command fr k = .refused { k with kernel_mem := mem }

/-- There is a process to start exactly when there is a program and a slot, if what passes the
comparison is a regular file. -/
theorem started_iff (hfits : ProgramFits env fr k command) :
    (∃ pid, started_pid env fr command k = some pid) ↔
      (∃ dentry, looked_up env command = some dentry ∧ Program env.fs dentry) ∧
        ∃ pid, pid < NUM_PROCESSES ∧ k.cur_processes pid = 0 := by
  rw [← free_pid_isSome]
  constructor
  · rintro ⟨pid, hpid⟩
    obtain ⟨line, dentry, rfl, hprog, hfree⟩ := started_pid_eq_some.mp hpid
    have hregular := (hfits line dentry pid rfl hprog hfree).1
    exact ⟨⟨dentry, (find_program_eq_some.mp hprog).1, hregular.program hprog⟩, pid, hfree⟩
  · rintro ⟨⟨dentry, hlookup, hprogram⟩, pid, hfree⟩
    obtain ⟨line, rfl, hname⟩ := Option.bind_eq_some_iff.mp hlookup
    exact ⟨pid, started_pid_eq_some.mpr ⟨line, dentry, rfl, hprogram.find hname, hfree⟩⟩

/-- With room for the arguments the programs are started, if what passes the comparison is a regular
file that fits. -/
theorem startsPrograms_of_fits (hargs : ArgsFit env.link command)
    (hfits : ProgramFits env fr k command) : StartsPrograms env poke fr k command := by
  constructor
  · rw [← started_iff hfits]
    constructor
    · rintro ⟨eip, k', hexec⟩
      by_contra hnone
      have hnone : started_pid env fr command k = none :=
        Option.eq_none_iff_forall_ne_some.mpr fun pid hpid => hnone ⟨pid, hpid⟩
      rw [execute_outcome_refused hargs hnone] at hexec
      cases hexec
    · rintro ⟨pid, hpid⟩
      obtain ⟨line, dentry, rfl, hprog, hfree⟩ := started_pid_eq_some.mp hpid
      exact (execute_outcome_loads _ hargs hprog hfree).1 (hfits line dentry pid rfl hprog hfree).2
  · intro hno
    rw [← started_iff hfits] at hno
    have hnone : started_pid env fr command k = none :=
      Option.eq_none_iff_forall_ne_some.mpr fun pid hpid => hno ⟨pid, hpid⟩
    exact ⟨_, execute_outcome_refused hargs hnone⟩

/-- And only then. -/
theorem StartsPrograms.fits (h : StartsPrograms env poke fr k command)
    (hargs : ArgsFit env.link command) : ProgramFits env fr k command := by
  rintro line dentry pid rfl hprog hfree
  have hloads := execute_outcome_loads poke hargs hprog hfree
  have hlookup : looked_up env (some line) = some dentry := (find_program_eq_some.mp hprog).1
  by_cases hfits : fits_page env k pid dentry
  · refine ⟨?_, hfits⟩
    -- the program is started, so it was to be, and it is the one that was looked up
    obtain ⟨⟨d, hd, hprogram⟩, -⟩ := h.starts_iff.mp (hloads.1 hfits)
    obtain rfl : dentry = d := Option.some.inj (hlookup.symm.trans hd)
    exact hprogram.toRegularFile
  · -- neither of the two ends that are allowed is a fault
    obtain ⟨location, k', hfault⟩ := hloads.2 hfits
    by_cases hvalid : (∃ d, looked_up env (some line) = some d ∧ Program env.fs d) ∧
        ∃ pid, pid < NUM_PROCESSES ∧ k.cur_processes pid = 0
    · obtain ⟨eip, k₁, hstart⟩ := h.starts_iff.mpr hvalid
      rw [hfault] at hstart
      cases hstart
    · obtain ⟨mem, hrefused⟩ := h.otherwise hvalid
      rw [hfault] at hrefused
      cases hrefused

/-- An argument text that overruns its room can fill the process table, wherever that lies. -/
def fill_table (_ : ℕ) (_ : List UInt8) (k : Kernel) : Kernel :=
  { k with cur_processes := fun _ => 1, dentry_counter := k.dentry_counter + 1 }

variable (fr k) in
/-- The call is refused then, whatever the file is. -/
theorem execute_outcome_overrun {line : List UInt8} (hargs : ¬ ArgsFit env.link (some line)) :
    execute_outcome env fill_table (some line) fr k = .refused (fill_table 0 [] k) := by
  have hfull : free_pid (fill_table 0 [] k) = none := by rfl
  unfold execute_outcome store_args
  simp only [if_neg hargs]
  cases find_program env.fs fr (command_name line) with
  | none => rfl
  | some dentry =>
      dsimp only
      replace hfull : free_pid (fill_table env.link.empty_string (command_args line ++ [0]) k) = none :=
        hfull
      rw [hfull]
      rfl

/-- So the bound on the arguments is needed. -/
theorem StartsPrograms.argsFit (h : StartsPrograms env fill_table fr k command) :
    ArgsFit env.link command := by
  by_contra hargs
  cases command with
  | none => exact hargs (Nat.zero_le _)
  | some line =>
      have hrefused := execute_outcome_overrun fr k hargs
      by_cases hvalid : (∃ d, looked_up env (some line) = some d ∧ Program env.fs d) ∧
          ∃ pid, pid < NUM_PROCESSES ∧ k.cur_processes pid = 0
      · obtain ⟨eip, k', hstart⟩ := h.starts_iff.mpr hvalid
        rw [hrefused] at hstart
        cases hstart
      · obtain ⟨mem, hmem⟩ := h.otherwise hvalid
        rw [hrefused, Outcome.refused.injEq] at hmem
        have hcounter := congrArg dentry_counter hmem
        exact absurd hcounter (Nat.succ_ne_self _)

end

end LinuxLikeOS
