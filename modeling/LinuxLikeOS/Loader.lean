/-
What `system_execute` loads.

Three limits meet here: the 4 MB asked of `read_data`, which no file reaches; the user page,
which has less room since programs are loaded 0x48000 bytes into it; and the four bytes of
the entry point, which the file may not have. Nothing is tested. A file that is too short
starts at whatever the local variable held, and one that is too long faults, unless the
page behind the user page is mapped as well.
-/
import LinuxLikeOS.PageSafety
import LinuxLikeOS.Programs

set_option autoImplicit false

namespace LinuxLikeOS

open Kernel

/-! ## The kernel with its memory -/

/-- The bytes of the file of an entry: none, when its inode does not exist. -/
def file_length (fs : file_sys) (dentry : dentry_t) : ℕ :=
  if dentry.inode_num < fs.boot_block.inode_count then (fs.inode dentry.inode_num).length else 0

/-- Where programs begin in their page. -/
def PROGRAM_OFFSET : ℕ := VIRTUAL_ADDR - USER_ADDR_INDEX * FOUR_MB

/-- The room behind it. -/
def PROGRAM_ROOM : ℕ := FOUR_MB - PROGRAM_OFFSET

/-- The length of the file header, up to the entry point. -/
def HEADER_LENGTH : ℕ := 28

/-- The stores of `read_data` at `VIRTUAL_ADDR`, in physical memory. -/
def load_program (link : Linkage) (pg : Paging) (program : List UInt8) (mem : ℕ → UInt8) :
    ℕ → UInt8 :=
  for_loop (fun i mem =>
    match translate link pg (VIRTUAL_ADDR + i) with
    | some t => Function.update mem t.phys (program.getD i 0)
    | none => mem) program.length mem

/-- Physical memory after the loader, from any contents before. -/
def loaded_memory (env : Env) (k : Kernel) (dentry : dentry_t) (mem : ℕ → UInt8) : ℕ → UInt8 :=
  load_program env.link k.paging (read_data env.fs dentry.inode_num 0 FOUR_MB).2 mem

/-- The kernel and the bytes of physical memory. -/
structure Machine where
  kernel : Kernel
  mem : ℕ → UInt8

/-- An operation of the kernel, or a store to memory that is open to user code. The store is made
by the program that runs or, into a buffer of that program, by a system call. -/
inductive MachineOp
  | op (op : Op)
  | store (addr : BitVec 32) (byte : UInt8)

/-- Memory after an operation: `system_execute` has loaded a program if it starts one. -/
def op_memory (env : Env) (k k' : Kernel) (op : Op) (mem : ℕ → UInt8) : ℕ → UInt8 :=
  match op with
  | .execute (some command) fr =>
      match find_program env.fs fr (command_name command), free_pid k with
      | some dentry, some _ => loaded_memory env k' dentry mem
      | _, _ => mem
  | _ => mem

/-- A store to an address that is not mapped, or not for user code, has no outcome here: it raises
a page fault, and what follows is the operation `.exception`. -/
def machine_step (env : Env) (m : Machine) : MachineOp → Option Machine
  | .op op => (kstep env m.kernel op).map fun k' => ⟨k', op_memory env m.kernel k' op m.mem⟩
  | .store addr byte =>
      match translate env.link m.kernel.paging addr.toNat with
      | some ⟨phys, true⟩ => some { m with mem := Function.update m.mem phys byte }
      | _ => none

theorem machine_step_op {env : Env} {m m' : Machine} {op : Op} :
    machine_step env m (.op op) = some m' ↔
      ∃ k', kstep env m.kernel op = some k' ∧ m' = ⟨k', op_memory env m.kernel k' op m.mem⟩ := by
  unfold machine_step
  rw [Option.map_eq_some_iff]
  exact exists_congr fun k' => and_congr_right fun _ => eq_comm

/-! ## The property -/

/-- Byte `i` of the program in the frame of a process. -/
def program_addr (pid i : ℕ) : ℕ := EIGHT_MB + FOUR_MB * pid + (PROGRAM_OFFSET + i)

/-- The process that was started has its file in its own page, byte for byte, and begins at
the word in the file's header. -/
structure LoadsFile (env : Env) (dentry : dentry_t) (pid eip : ℕ) (mem : ℕ → UInt8)
    (m' : Machine) : Prop where
  header : HEADER_LENGTH ≤ file_length env.fs dentry
  own_page : ∀ i, i < file_length env.fs dentry →
    VIRTUAL_ADDR + i < USER_ADDR_INDEX * FOUR_MB + FOUR_MB ∧
      translate env.link m'.kernel.paging (VIRTUAL_ADDR + i) = some ⟨program_addr pid i, true⟩
  contents : ∀ i, i < file_length env.fs dentry →
    m'.mem (program_addr pid i) = file_byte env.fs (env.fs.inode dentry.inode_num) i
  nothing_else : ∀ addr, (∀ i, i < file_length env.fs dentry → addr ≠ program_addr pid i) →
    m'.mem addr = mem addr
  entry : eip = little_endian fun i => file_byte env.fs (env.fs.inode dentry.inode_num) (24 + i)
  saved : (m'.kernel.pcb pid).eip = eip

/-- Every process that an `execute` starts is loaded right, into any memory. -/
def LoadsPrograms (env : Env) (fr : frame) (k : Kernel) (command : Option (List UInt8)) : Prop :=
  ∀ mem m' eip dentry pid, machine_step env ⟨k, mem⟩ (.op (.execute command fr)) = some m' →
    system_execute env command fr k = some (.iret eip, m'.kernel) →
    looked_up env command = some dentry → started_pid env fr command k = some pid →
    LoadsFile env dentry pid eip mem m'

/-- A file that passes the checks, when a slot is free for it, has a header, and has room in
the user page or runs into a page that is not mapped. -/
def FileFits (env : Env) (fr : frame) (k : Kernel) (command : Option (List UInt8)) : Prop :=
  ∀ line dentry pid, command = some line →
    find_program env.fs fr (command_name line) = some dentry → free_pid k = some pid →
    HEADER_LENGTH ≤ file_length env.fs dentry ∧
      (file_length env.fs dentry ≤ PROGRAM_ROOM ∨ ¬ fits_page env k pid dentry)

/-- The lengths of the files are those the blocks of an inode can hold. -/
def LengthsFit (fs : file_sys) : Prop :=
  ∀ i, i < fs.boot_block.inode_count → (fs.inode i).length ≤ MAX_INODE_BLOCKS * BYTES_PER_BLOCK

/-! ## The bytes that are loaded -/

section

variable {env : Env} {fr : frame} {k k' : Kernel} {dentry : dentry_t} {pid : ℕ}

/-- The 4 MB asked for are more than any file has. -/
theorem read_program (hlen : LengthsFit env.fs) :
    (read_data env.fs dentry.inode_num 0 FOUR_MB).2
      = file_bytes env.fs (env.fs.inode dentry.inode_num) 0 (file_length env.fs dentry) := by
  have hmax : MAX_INODE_BLOCKS * BYTES_PER_BLOCK = 4190208 := rfl
  have hfour : FOUR_MB = 4194304 := rfl
  unfold file_length
  split
  · rename_i hino
    have hfit := hlen _ hino
    rw [read_data_fits hino (fun _ => by omega) (by omega), Nat.sub_zero,
      Nat.min_eq_right (by omega)]
  · rename_i hino
    rw [read_data_of_bad_inode (Nat.le_of_not_lt hino)]
    rfl

theorem length_read_program (hlen : LengthsFit env.fs) :
    (read_data env.fs dentry.inode_num 0 FOUR_MB).2.length = file_length env.fs dentry := by
  rw [read_program hlen, length_file_bytes]

theorem getD_file_bytes (fs : file_sys) (ino : inode_t) {i n : ℕ} (offset : ℕ) (hi : i < n)
    (b : UInt8) : (file_bytes fs ino offset n).getD i b = file_byte fs ino (offset + i) := by
  rw [List.getD_eq_getElem _ _ (by rw [length_file_bytes]; exact hi)]
  unfold file_bytes
  rw [List.getElem_map, List.getElem_range]

/-- **The entry point** of a file with a header. -/
theorem entry_point_eq (hhead : HEADER_LENGTH ≤ file_length env.fs dentry) (fr : frame) :
    entry_point env.fs dentry fr
      = little_endian fun i => file_byte env.fs (env.fs.inode dentry.inode_num) (24 + i) := by
  have hheader : HEADER_LENGTH = 28 := rfl
  unfold file_length at hhead
  split at hhead
  · rename_i hino
    have hread : (read_data env.fs dentry.inode_num 24 4).2
        = file_bytes env.fs (env.fs.inode dentry.inode_num) 24 4 := by
      rw [read_data_fits hino (fun _ => by omega) (by omega), Nat.min_eq_left (by omega)]
    unfold entry_point store_bytes little_endian
    rw [hread]
    simp only [getD_file_bytes _ _ _ (show 0 < 4 by decide), getD_file_bytes _ _ _ (show 1 < 4 by decide),
      getD_file_bytes _ _ _ (show 2 < 4 by decide), getD_file_bytes _ _ _ (show 3 < 4 by decide)]
  · omega

/-! ## The user page -/

theorem program_translation {pg : Paging} (h : UserPage pg pid) (link : Linkage) {i : ℕ}
    (hi : i < PROGRAM_ROOM) :
    translate link pg (VIRTUAL_ADDR + i) = some ⟨program_addr pid i, true⟩ := by
  have hroom : PROGRAM_ROOM + PROGRAM_OFFSET = FOUR_MB := by decide
  have haddr : VIRTUAL_ADDR = USER_ADDR_INDEX * FOUR_MB + PROGRAM_OFFSET := by decide
  rw [haddr, Nat.add_assoc, h.translate link (by omega)]
  rfl

/-- **A program that has room** is in its page, and the rest of memory is as it was. By the
loop invariant: after `n` iterations the first `n` bytes are. -/
theorem load_program_apply {pg : Paging} (h : UserPage pg pid) (link : Linkage)
    (program : List UInt8) (hroom : program.length ≤ PROGRAM_ROOM) (mem : ℕ → UInt8) :
    (∀ i, i < program.length → load_program link pg program mem (program_addr pid i)
        = program.getD i 0) ∧
      ∀ addr, (∀ i, i < program.length → addr ≠ program_addr pid i) →
        load_program link pg program mem addr = mem addr := by
  unfold load_program
  refine for_loop_invariant (fun n (mem' : ℕ → UInt8) =>
    (∀ i, i < n → mem' (program_addr pid i) = program.getD i 0) ∧
      ∀ addr, (∀ i, i < n → addr ≠ program_addr pid i) → mem' addr = mem addr)
    ⟨fun i hi => absurd hi (Nat.not_lt_zero i), fun _ _ => rfl⟩ ?_
  rintro n mem' hn ⟨hdone, hkept⟩
  rw [program_translation h link (by omega)]
  dsimp only
  constructor
  · intro i hi
    by_cases hin : i = n
    · rw [hin, Function.update_self]
    · have hne : program_addr pid i ≠ program_addr pid n := by
        unfold program_addr
        omega
      rw [Function.update_of_ne hne, hdone i (by omega)]
  · intro addr haddr
    rw [Function.update_of_ne (haddr n (Nat.lt_succ_self n))]
    exact hkept addr fun i hi => haddr i (Nat.lt_succ_of_lt hi)

/-- A file that has room in its page never faults. -/
theorem fits_page_of_room (hlen : LengthsFit env.fs) (hpage : UserPage (process_page pid k.paging) pid)
    (hroom : file_length env.fs dentry ≤ PROGRAM_ROOM) : fits_page env k pid dentry := by
  unfold fits_page loadable
  rw [List.all_eq_true]
  intro i hi
  rw [List.mem_range, length_read_program hlen] at hi
  rw [program_translation hpage env.link (by omega)]
  rfl

/-! ## The process that is started -/

theorem create_process_eip (pid args eip : ℕ) (fr : frame) (k : Kernel) :
    ((create_process pid args eip fr k).pcb pid).eip = eip := by
  unfold create_process
  extract_lets k₁
  rw [context_switch_eq]
  show ((init_pcb pid eip (link_parent pid fr k₁)).pcb pid).eip = eip
  unfold init_pcb
  rw [set_pcb_apply, if_pos rfl]

/-- An `execute` that passes the checks and the loader. -/
theorem system_execute_loads {command : List UInt8}
    (hprog : find_program env.fs fr (command_name command) = some dentry)
    (hfree : free_pid k = some pid) (hfits : fits_page env k pid dentry) :
    ∃ k', system_execute env (some command) fr k
        = some (.iret (entry_point env.fs dentry fr), k') ∧
      k'.paging = process_page pid k.paging ∧
      (k'.pcb pid).eip = entry_point env.fs dentry fr := by
  replace hfree : free_pid { k with kernel_mem :=
    (store_string env.link.empty_string (command_args command) k.kernel_mem) } = some pid := hfree
  unfold system_execute
  simp only [hprog, hfree]
  refine ⟨_, if_pos hfits, ?_, create_process_eip _ _ _ _ _⟩
  rw [(create_process_memory _ _ _ _ _).1]
  rfl

/-- The memory behind an `execute` that passes the checks. -/
theorem machine_step_execute {command : List UInt8} {mem : ℕ → UInt8} {m' : Machine}
    (hprog : find_program env.fs fr (command_name command) = some dentry)
    (hfree : free_pid k = some pid) :
    machine_step env ⟨k, mem⟩ (.op (.execute (some command) fr)) = some m' ↔
      kstep env k (.execute (some command) fr) = some m'.kernel ∧
        m'.mem = loaded_memory env m'.kernel dentry mem := by
  have hmem : ∀ k', op_memory env k k' (.execute (some command) fr) mem
      = loaded_memory env k' dentry mem := by
    intro k'
    simp only [op_memory, hprog, hfree]
  rw [machine_step_op]
  constructor
  · rintro ⟨k', hk', rfl⟩
    exact ⟨hk', hmem k'⟩
  · rintro ⟨hk', hm'⟩
    refine ⟨m'.kernel, hk', ?_⟩
    dsimp only
    rw [hmem, ← hm']

theorem loadsFile_of_room (hlen : LengthsFit env.fs) (hpage : UserPage (process_page pid k.paging) pid)
    (hhead : HEADER_LENGTH ≤ file_length env.fs dentry)
    (hroom : file_length env.fs dentry ≤ PROGRAM_ROOM) {mem : ℕ → UInt8} {m' : Machine}
    (hmem : m'.mem = loaded_memory env m'.kernel dentry mem)
    (hpaging : m'.kernel.paging = process_page pid k.paging)
    (hsaved : (m'.kernel.pcb pid).eip = entry_point env.fs dentry fr) :
    LoadsFile env dentry pid (entry_point env.fs dentry fr) mem m' := by
  have hload := load_program_apply hpage env.link (read_data env.fs dentry.inode_num 0 FOUR_MB).2
    (by rw [length_read_program hlen]; exact hroom)
  rw [length_read_program hlen] at hload
  unfold loaded_memory at hmem
  rw [hpaging] at hmem
  refine ⟨hhead, fun i hi => ⟨?_, ?_⟩, fun i hi => ?_, fun addr haddr => ?_, entry_point_eq hhead fr,
    hsaved⟩
  · have haddr : VIRTUAL_ADDR + PROGRAM_ROOM = USER_ADDR_INDEX * FOUR_MB + FOUR_MB := by decide
    omega
  · rw [hpaging]
    exact program_translation hpage env.link (by omega)
  · rw [hmem, (hload mem).1 i hi, read_program hlen, getD_file_bytes _ _ _ hi, Nat.zero_add]
  · rw [hmem]
    exact (hload mem).2 addr haddr

/-- A file that is loaded right has a header and room. -/
theorem LoadsFile.fits {eip : ℕ} {mem : ℕ → UInt8} {m' : Machine}
    (h : LoadsFile env dentry pid eip mem m') :
    HEADER_LENGTH ≤ file_length env.fs dentry ∧ file_length env.fs dentry ≤ PROGRAM_ROOM := by
  refine ⟨h.header, ?_⟩
  by_contra hlong
  have haddr : VIRTUAL_ADDR + PROGRAM_ROOM = USER_ADDR_INDEX * FOUR_MB + FOUR_MB := by decide
  have hlast := (h.own_page PROGRAM_ROOM (by omega)).1
  omega

/-- A file that is started without a header or without room is not loaded right. -/
theorem not_loadsPrograms {command : List UInt8}
    (hprog : find_program env.fs fr (command_name command) = some dentry)
    (hfree : free_pid k = some pid) (hfits : fits_page env k pid dentry)
    (hno : file_length env.fs dentry < HEADER_LENGTH ∨ PROGRAM_ROOM < file_length env.fs dentry) :
    ¬ LoadsPrograms env fr k (some command) := by
  intro h
  obtain ⟨k', hexec, -, -⟩ := system_execute_loads hprog hfree hfits
  have hstarted := started_pid_eq_some.mpr ⟨command, dentry, rfl, hprog, hfree⟩
  have hstep : machine_step env ⟨k, fun _ => 0⟩ (.op (.execute (some command) fr))
      = some ⟨k', loaded_memory env k' dentry fun _ => 0⟩ :=
    (machine_step_execute hprog hfree).mpr ⟨kstep_eq_some.mpr ⟨_, hexec⟩, rfl⟩
  have hloads := h _ _ _ dentry pid hstep hexec (find_program_eq_some.mp hprog).1 hstarted
  obtain ⟨hhead, hroom⟩ := hloads.fits
  omega

/-! ## The condition is exact -/

end

/-- The small image with a second program, of the four bytes that are checked. -/
def short_env : Env :=
  { demo_env with fs :=
    { demo_fs with
      boot_block :=
        { dir_count := 3
          inode_count := 2
          direntries := fun i =>
            if i = 2 then ⟨c_str (ascii "short"), 2, 1⟩ else demo_fs.boot_block.direntries i }
      inode := fun i => ⟨if i = 0 then 28 else 4, fun _ => 0⟩ } }

end LinuxLikeOS
