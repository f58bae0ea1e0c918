/-
`syscalls.c`, with the device operations its jump tables lead to.

An operation returns `none` when the processor would fault inside the kernel: a
call through an operation pointer that is `NULL` or was never assigned, or a
program that does not fit the mapped user page. Everything else is a value and a
new kernel, or a `Control` where the operation does not return to its caller.
What the kernel goes on with after a page fault is in `Faults` and `Moments`.

`system_execute` is cut where its comments cut it: the command line, the checks on
the file, the free slot, and the new process.
-/
import LinuxLikeOS.Console

set_option autoImplicit false

namespace LinuxLikeOS

def ELF_LENGTH : ℕ := 4
def VIRTUAL_ADDR : ℕ := 0x08048000
def EXCEPTION : ℕ := 255
def ONE_TWENTY_EIGHT_MB : ℕ := FOUR_MB * 32
def ONE_THIRTY_TWO_MB : ℕ := ONE_TWENTY_EIGHT_MB + FOUR_MB

def get_pcb (k : Kernel) (pid : ℕ) : pcb_t := k.pcb pid

/-! ## The real-time clock as a file -/

def rtc_max_usable_frequency : Int := 1024
def rtc_min_frequency : Int := 2

def set_RTC_frequency (freq : Int) (k : Kernel) : Kernel :=
  if freq ≥ rtc_min_frequency ∧ freq ≤ rtc_max_usable_frequency then
    let t := k.curr_terminal
    let max := rtc_max_usable_frequency.tdiv freq
    { k with rtc :=
      { k.rtc with
        RTC_frequency := freq
        RTC_max_counter := Function.update k.rtc.RTC_max_counter t max
        RTC_counter := Function.update k.rtc.RTC_counter t max } }
  else k

def RTC_open (k : Kernel) : Int × Kernel := (0, set_RTC_frequency rtc_min_frequency k)

/-- `RTC_read` up to its waiting loop. -/
def RTC_read_begin (k : Kernel) : Control × Kernel :=
  let t := k.curr_terminal
  (.wait, { k with rtc :=
    { k.rtc with
      RTC_counter := Function.update k.rtc.RTC_counter t (k.rtc.RTC_max_counter t)
      RTC_block := Function.update k.rtc.RTC_block t 1 } })

/-! ## Files and directories -/

/-- Assignment to one descriptor of a process. -/
def set_fd (pid i : ℕ) (f : fd_t → fd_t) (k : Kernel) : Kernel :=
  k.set_pcb pid fun p =>
    { p with file_descriptors := Function.update p.file_descriptors i (f (p.file_descriptors i)) }

def read_file (fs : file_sys) (fd : ℕ) (nbytes : Int) (k : Kernel) : Int × List UInt8 × Kernel :=
  if fd ≥ FILE_DESCRIPTOR_MAX then (-1, [], k)
  else
    let file := (get_pcb k k.curr_pid).file_descriptors fd
    let offset := file.file_pos
    -- the position moves by the bytes asked for, not by those read
    let k := set_fd k.curr_pid fd (fun file => { file with file_pos := i32 (file.file_pos + nbytes) }) k
    let (bytes_read, bytes) := read_data fs (u32 file.inode) (u32 offset) (u32 nbytes)
    (bytes_read, bytes, k)

def read_directory (fs : file_sys) (fd : ℕ) (k : Kernel) : Int × List UInt8 × Kernel :=
  if k.dentry_counter ≥ fs.boot_block.dir_count then (0, [], { k with dentry_counter := 0 })
  else
    -- the counter is not the descriptor's
    let file := (get_pcb k k.curr_pid).file_descriptors fd
    let dentry := (read_dentry_by_index fs k.dentry_counter).getD
      (fs.boot_block.direntries (u32 file.file_pos))
    (FILENAME_LEN, (List.range FILENAME_LEN).map dentry.filename,
      { k with dentry_counter := k.dentry_counter + 1 })

/-! ## The jump tables -/

/-- `file_op_table_ptr->open`. The two terminal tables have no `open`. -/
def fops_open (ops : fops_ptr) (k : Kernel) : Option (Int × Kernel) :=
  match ops with
  | .rtc_ops => some (RTC_open k)
  | .dir_ops => some (0, k)
  | .file_ops => some (0, k)
  | .term_read_ops | .term_write_ops | .NULL | .wild _ => none

/-- `file_op_table_ptr->close`. All three functions only return 0. -/
def fops_close (ops : fops_ptr) : Option Int :=
  match ops with
  | .rtc_ops | .dir_ops | .file_ops => some 0
  | .term_read_ops | .term_write_ops | .NULL | .wild _ => none

/-- `file_op_table_ptr->read`, with the bytes stored at `buf`. -/
def fops_read (fs : file_sys) (ops : fops_ptr) (fd buf : ℕ) (nbytes : Int) (k : Kernel) :
    Option (Control × List UInt8 × Kernel) :=
  match ops with
  | .term_read_ops => let (c, k) := terminal_read_begin buf nbytes k; some (c, [], k)
  | .rtc_ops => let (c, k) := RTC_read_begin k; some (c, [], k)
  | .dir_ops => let (n, bytes, k) := read_directory fs fd k; some (.ret n, bytes, k)
  | .file_ops => let (n, bytes, k) := read_file fs fd nbytes k; some (.ret n, bytes, k)
  | .term_write_ops | .NULL | .wild _ => none

/-- `flags != NOT_IN_USE`. -/
def fd_t.in_use (f : fd_t) : Prop := f.flags ≠ NOT_IN_USE

instance (f : fd_t) : Decidable f.in_use := inferInstanceAs (Decidable (_ ≠ _))

/-- `buf` is not tested. It is taken to be in the user page here, and only the terminal
keeps it; `Moments` has the stores to any other address. -/
def system_read (fs : file_sys) (fd : Int) (buf : ℕ) (nbytes : Int) (k : Kernel) :
    Option (Control × List UInt8 × Kernel) :=
  let file := (get_pcb k k.curr_pid).file_descriptors fd.toNat
  if (0 ≤ fd ∧ fd < FILE_DESCRIPTOR_MAX ∧ fd ≠ 1) ∧ file.in_use then
    fops_read fs file.file_op_table_ptr fd.toNat buf nbytes k
  else some (.ret (-1), [], k)

/-- The first descriptor from `FILE_DESCRIPTOR_MIN` on that is not in use. -/
def free_fd (p : pcb_t) : Option ℕ :=
  ((List.range FILE_DESCRIPTOR_MAX).drop FILE_DESCRIPTOR_MIN).find? fun i =>
    ¬ (p.file_descriptors i).in_use

/-- The operation table for a file type; any other type leaves the pointer. -/
def file_type_ops (file_type : ℕ) (old : fops_ptr) : fops_ptr :=
  match file_type with
  | 0 => .rtc_ops
  | 1 => .dir_ops
  | 2 => .file_ops
  | _ => old

def system_open (fs : file_sys) (filename : List UInt8) (k : Kernel) : Option (Int × Kernel) :=
  match read_dentry_by_name fs (c_str filename), free_fd (get_pcb k k.curr_pid) with
  | some dentry, some index =>
      let old := (get_pcb k k.curr_pid).file_descriptors index
      let ops := file_type_ops dentry.filetype old.file_op_table_ptr
      let k := set_fd k.curr_pid index (fun _ =>
        { file_op_table_ptr := ops, inode := i32 dentry.inode_num, file_pos := 0,
          flags := IN_USE }) k
      (fops_open ops k).map fun r => (index, r.2)
  | _, _ => some (-1, k)

/-- The descriptor `system_close` leaves. -/
def closed_fd (f : fd_t) : fd_t := { f with flags := NOT_IN_USE, inode := -1, file_pos := 0 }

def system_close (fd : Int) (k : Kernel) : Option (Int × Kernel) :=
  let file := (get_pcb k k.curr_pid).file_descriptors fd.toNat
  if (FILE_DESCRIPTOR_MIN ≤ fd ∧ fd < FILE_DESCRIPTOR_MAX) ∧ file.in_use then
    (fops_close file.file_op_table_ptr).map fun r =>
      (r, set_fd k.curr_pid fd.toNat closed_fd k)
  else some (-1, k)

/-! ## `system_execute` -/

/-- What `system_execute` finds in its uninitialised locals and in the registers. -/
structure frame where
  buf : ℕ → UInt8
  eip : ℕ → UInt8
  esp : ℕ
  ebp : ℕ

/-- Skips spaces from index `i`, with the text there. -/
def skip_spaces : List UInt8 → ℕ → List UInt8 × ℕ
  | [], i => ([], i)
  | c :: cs, i => if c = SPACE_ASCII then skip_spaces cs (i + 1) else (c :: cs, i)

/-- The loop that copies the name of the executable, from index `i` of the command:
the name, and the text behind the spaces after it when a space ends it. -/
def scan_filename : List UInt8 → ℕ → List UInt8 × Option (List UInt8)
  | [], _ => ([], none)
  | c :: cs, i =>
      if c = 0 ∨ ¬ i < FILENAME_LEN then ([], none)
      else if c = SPACE_ASCII then ([], some (skip_spaces cs 0).1)
      else (c :: (scan_filename cs (i + 1)).1, (scan_filename cs (i + 1)).2)

/-- Whether only spaces are left up to the terminator. -/
def only_spaces : List UInt8 → Bool
  | [] => true
  | c :: cs => if c = 0 then true else if c = SPACE_ASCII then only_spaces cs else false

/-- The loop that copies the arguments and stops at trailing spaces. -/
def copy_args : List UInt8 → List UInt8
  | [] => []
  | c :: cs =>
      if c = 0 then []
      else if c = SPACE_ASCII ∧ only_spaces (c :: cs) then []
      else c :: copy_args cs

/-- The name of the executable in a command line. -/
def command_name (command : List UInt8) : List UInt8 :=
  let start := skip_spaces command 0
  (scan_filename start.1 start.2).1

/-- The argument text of a command line. -/
def command_args (command : List UInt8) : List UInt8 :=
  let start := skip_spaces command 0
  match (scan_filename start.1 start.2).2 with
  | none => []
  | some rest => copy_args rest

/-- A string and its terminator stored at an address. The bytes behind a literal are taken to
belong to no other variable, however long the string is; `Faults` bounds it. -/
def store_string (addr : ℕ) (s : List UInt8) (mem : ℕ → UInt8) : ℕ → UInt8 :=
  fun a => if addr ≤ a ∧ a ≤ addr + s.length then c_str s (a - addr) else mem a

/-- Bytes stored at the start of a buffer. -/
def store_bytes (bytes : List UInt8) (buf : ℕ → UInt8) : ℕ → UInt8 :=
  fun i => bytes.getD i (buf i)

/-- The magic constant `elf_check`. -/
def elf_check : ℕ → UInt8 := c_str [0x7F, 0x45, 0x4C, 0x46]

/-- The checks on the file: the name is in the directory, and the first bytes of the
file compare equal to the magic constant. -/
def find_program (fs : file_sys) (fr : frame) (filename : List UInt8) : Option dentry_t :=
  match read_dentry_by_name fs (c_str filename) with
  | none => none
  | some dentry =>
      let buf := store_bytes (read_data fs dentry.inode_num 0 ELF_LENGTH).2 fr.buf
      if strncmp elf_check buf ELF_LENGTH ≠ 0 then none else some dentry

/-- The first slot of `cur_processes` that is not in use. -/
def free_pid (k : Kernel) : Option ℕ :=
  (List.range NUM_PROCESSES).find? fun i => k.cur_processes i = 0

/-- Whether every address the loader stores `n` bytes to is mapped. -/
def loadable (link : Linkage) (pg : Paging) (n : ℕ) : Bool :=
  (List.range n).all fun i => (translate link pg (VIRTUAL_ADDR + i)).isSome

/-- The descriptors of a new process. The operation pointers of the general ones
stay as they were. -/
def new_fds (fds : ℕ → fd_t) : ℕ → fd_t := fun i =>
  if i = 0 then ⟨.term_read_ops, 0, 0, IN_USE⟩
  else if i = 1 then ⟨.term_write_ops, 0, 0, IN_USE⟩
  else if i < FILE_DESCRIPTOR_MAX then
    { fds i with inode := 0, file_pos := 0, flags := NOT_IN_USE }
  else fds i

/-- The four bytes at `eip` as a word. -/
def little_endian (b : ℕ → UInt8) : ℕ :=
  (b 0).toNat + (b 1).toNat * 256 + (b 2).toNat * 65536 + (b 3).toNat * 16777216

/-- The entry point the IRET uses: bytes 24 to 27 of the file. -/
def entry_point (fs : file_sys) (dentry : dentry_t) (fr : frame) : ℕ :=
  little_endian (store_bytes (read_data fs dentry.inode_num 24 4).2 fr.eip)

def update_tss (new_pid : ℕ) (terminal_id : Terminal) (k : Kernel) : Kernel :=
  k.set_terminal terminal_id fun ti =>
    { ti with base_tss_esp0 := Kernel.stack_top new_pid, base_tss_ss0 := KERNEL_DS }

/-- The parent of a new process and the terminal it is recorded on: a base shell
starts on the scheduled terminal, any other process below the one recorded for the
terminal on display, whose registers are saved. -/
def link_parent (pid : ℕ) (fr : frame) (k : Kernel) : Kernel :=
  if k.base_shell = 1 then
    let t := k.curr_terminal
    (k.set_pcb pid fun p => { p with parent_pid := BASE_SHELL, terminal_id := t.val }).set_terminal
      t fun ti => { ti with pid := pid }
  else
    -- not `curr_terminal`, as in the other branch
    let t := k.screen_terminal
    let parent := (k.terminal_array t).pid
    let k := k.set_pcb pid fun p => { p with parent_pid := parent }
    let k := k.set_pcb parent fun p => { p with ebp := fr.ebp, esp := fr.esp }
    let k := k.set_terminal t fun ti => { ti with pid := pid }
    k.set_pcb pid fun p => { p with terminal_id := t.val }

/-- The descriptors, the saved task state and the entry point of a new process. -/
def init_pcb (pid eip : ℕ) (k : Kernel) : Kernel :=
  { k with base_shell := 0 }.set_pcb pid fun p =>
    { p with
      file_descriptors := new_fds p.file_descriptors
      tss_esp0 := k.tss.esp0
      tss_ss0 := k.tss.ss0
      eip := eip }

/-- The task state for a process on the scheduled terminal. -/
def context_switch (pid : ℕ) (k : Kernel) : Kernel :=
  update_tss pid k.curr_terminal { k with tss := ⟨Kernel.stack_top pid, KERNEL_DS⟩ }

/-- The part of `system_execute` behind the loader: the control block, the parent,
the descriptors and the task state. -/
def create_process (pid args eip : ℕ) (fr : frame) (k : Kernel) : Kernel :=
  let k := k.set_pcb pid fun p => { p with pid := pid, args := args }
  context_switch pid (init_pcb pid eip (link_parent pid fr k))

/-- A slot taken and its frame mapped. -/
def claim_slot (pid : ℕ) (k : Kernel) : Kernel :=
  { k with cur_processes := Function.update k.cur_processes pid 1 }.set_paging (process_page pid)

/-- `system_execute`; `none` as the command is the `NULL` pointer. There is no outcome when the
loader faults, with the slot already taken: `execute_outcome` has the kernel of that moment. -/
def system_execute (env : Env) (command : Option (List UInt8)) (fr : frame) (k : Kernel) :
    Option (Control × Kernel) :=
  match command with
  | none => some (.ret (-1), k)
  | some command =>
      let cur_args := env.link.empty_string
      -- the parser runs before the checks, and stores into the one literal
      let k := { k with kernel_mem := store_string cur_args (command_args command) k.kernel_mem }
      match find_program env.fs fr (command_name command) with
      | none => some (.ret (-1), k)
      | some dentry =>
          match free_pid k with
          | none => some (.ret (-1), k)
          | some pid =>
              let k := claim_slot pid k
              let program := (read_data env.fs dentry.inode_num 0 FOUR_MB).2
              if loadable env.link k.paging program.length then
                let eip := entry_point env.fs dentry fr
                some (.iret eip, create_process pid cur_args eip fr k)
              else none

/-! ## `system_halt` -/

/-- `for (i = 0; i < n; i++) system_close(i)`. -/
def close_files : ℕ → Kernel → Option Kernel
  | 0, k => some k
  | n + 1, k => (close_files n k).bind fun k => (system_close n k).map Prod.snd

/-- The value `system_halt` hands to the parent. -/
def ext_status (status : ℕ) : ℕ := if status = EXCEPTION then EXCEPTION + 1 else status

/-- The part of `system_halt` before the files are closed: the slot is free, the
terminal records the parent, and the parent's frame is mapped. -/
def leave_process (halting_pid parent_pid : ℕ) (k : Kernel) : Kernel :=
  let k := { k with cur_processes := Function.update k.cur_processes halting_pid 0 }
  (k.set_terminal k.curr_terminal fun ti => { ti with pid := parent_pid }).set_paging
    (process_page parent_pid)

/-- The part behind it: the task state of the parent. -/
def resume_parent (parent_pid : ℕ) (k : Kernel) : Kernel :=
  (context_switch parent_pid k).set_terminal k.curr_terminal fun ti => { ti with pid := parent_pid }

/-- `system_halt`, as if no interrupt came between its `sti` and the loads of `esp` and `ebp`.
`system_halt_to_sti` is the part before them. -/
def system_halt (status : ℕ) (k : Kernel) : Option (Control × Kernel) :=
  let halting_pid := k.curr_pid
  let pcb := get_pcb k halting_pid
  let parent_pid := pcb.parent_pid
  if parent_pid = BASE_SHELL ∧ (k.terminal_array k.curr_terminal).flag = 1 then
    -- a base shell is entered again at its first instruction
    some (.iret pcb.eip, k)
  else
    (close_files FILE_DESCRIPTOR_MAX (leave_process halting_pid parent_pid k)).map fun k =>
      let k := resume_parent parent_pid k
      let parent_pcb := get_pcb k parent_pid
      (.execute_return (ext_status status) parent_pcb.esp parent_pcb.ebp, k)

/-! ## Arguments and video memory -/

/-- The text behind the argument pointer of a process. -/
def args_text (k : Kernel) (pid : ℕ) : ℕ → UInt8 := fun i => k.kernel_mem ((get_pcb k pid).args + i)

/-- The bytes `memcpy` stores at `buf` are those behind the pointer. -/
def system_getargs (nbytes : Int) (k : Kernel) : Int × List UInt8 :=
  let text := args_text k k.curr_pid
  if u32 ((strlen text : Int) + 1) > u32 nbytes ∨ strlen text = 0 then (-1, [])
  else (0, (List.range (u32 nbytes)).map text)

/-- The pointer test of `system_vidmap`. -/
def vidmap_addr_ok (screen_start : ℕ) : Prop :=
  ¬ (screen_start = 0 ∨
    ¬ (screen_start ≥ ONE_TWENTY_EIGHT_MB ∧ screen_start ≤ ONE_THIRTY_TWO_MB))

instance (screen_start : ℕ) : Decidable (vidmap_addr_ok screen_start) :=
  inferInstanceAs (Decidable (¬ _))

def system_vidmap (link : Linkage) (screen_start : ℕ) (k : Kernel) : Int × Kernel :=
  if vidmap_addr_ok screen_start then (0, k.set_paging (vidmap_pages link)) else (-1, k)

/-! ## Writing -/

def rtc_max_frequency : ℕ := 32768
def rtc_lowest_rate : ℕ := 6
def rtc_highest_rate : ℕ := 15
def BYTE_4 : Int := 4

/-- The first of the rates `RTC_write` tries that gives the frequency. -/
def rate_of (freq : ℕ) : Option ℕ :=
  ((List.range (rtc_highest_rate + 1)).drop rtc_lowest_rate).find? fun i =>
    freq = rtc_max_frequency >>> (i - 1)

/-- The loop of `RTC_write`: the frequency is set when one of the rates gives it. -/
def try_rates (freq : ℕ) (k : Kernel) : Int × Kernel :=
  match rate_of freq with
  | some i => (0, set_RTC_frequency (rtc_max_frequency >>> (i - 1) : ℕ) k)
  | none => (-1, k)

def RTC_write (buffer : Option (ℕ → UInt8)) (nbytes : Int) (k : Kernel) : Int × Kernel :=
  if nbytes ≠ BYTE_4 then (-1, k)
  else
    match buffer with
    | none => (-1, k)
    | some buffer => try_rates (little_endian buffer) k

/-- `file_op_table_ptr->write`. Files and directories are read-only. -/
def fops_write (ops : fops_ptr) (buf : Option (ℕ → UInt8)) (nbytes : Int) (k : Kernel) :
    Option (Int × Kernel) :=
  match ops with
  | .term_write_ops => some (terminal_write buf nbytes k)
  | .rtc_ops => some (RTC_write buf nbytes k)
  | .dir_ops | .file_ops => some (-1, k)
  | .term_read_ops | .NULL | .wild _ => none

def system_write (fd : Int) (buf : Option (ℕ → UInt8)) (nbytes : Int) (k : Kernel) :
    Option (Int × Kernel) :=
  let file := (get_pcb k k.curr_pid).file_descriptors fd.toNat
  if (1 ≤ fd ∧ fd < FILE_DESCRIPTOR_MAX) ∧ file.in_use then
    fops_write file.file_op_table_ptr buf nbytes k
  else some (-1, k)

end LinuxLikeOS
