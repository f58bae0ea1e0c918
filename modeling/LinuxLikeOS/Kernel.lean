/-
The global variables of the kernel, as one record.

Every operation of the model is a function on this record, under the name the
source gives it. The fields keep the source's names too, upper-case flags
included. Arrays are functions of the index, and a loop over an array is written
index by index where its iterations do not read each other's stores.

`get_pcb` turns a process number into the address of its control block by
arithmetic alone, so the model keeps a control block for every `uint32_t`; the
six real ones are those below `NUM_PROCESSES`, and what an operation finds at any
other number is arbitrary memory. A `pid` field declared `int` is kept as its
32-bit pattern, `-1` as `NO_PID`.
-/
import LinuxLikeOS.Page
import LinuxLikeOS.FileSys

set_option autoImplicit false

namespace LinuxLikeOS

def MAX_TERMINALS : ℕ := 3
def MAX_BUF_SIZE : ℕ := 128
def FILE_DESCRIPTOR_MAX : ℕ := 8
def FILE_DESCRIPTOR_MIN : ℕ := 2
def IN_USE : Int := 1
def NOT_IN_USE : Int := -1
def EIGHT_KB : ℕ := 0x2000
def BASE_SHELL : ℕ := 24
def KERNEL_DS : ℕ := 0x18

/-- The bit pattern of `pid = -1`. -/
def NO_PID : ℕ := 4294967295

/-- An index of `terminal_array`. -/
abbrev Terminal := Fin MAX_TERMINALS

instance : NeZero MAX_TERMINALS := ⟨by decide⟩

/-! ## Terminals -/

/-- `terminal_info_t`. The padding bytes of the structure are kept by their offset,
since a store past the end of `buffer` can reach them. -/
structure terminal_info_t where
  flag : Int
  terminal_id : Int
  screen_x : Int
  screen_y : Int
  buffer : ℕ → UInt8
  buffer_size : ℕ
  pid : ℕ
  base_tss_esp0 : ℕ
  base_tss_ss0 : ℕ
  waitingInRead : Int
  enter_flag : Int
  attrib : UInt8
  padding : ℕ → UInt8

/-- A character cell of text-mode video memory. -/
structure cell where
  character : UInt8
  attrib : UInt8
  deriving DecidableEq

/-! ## Processes -/

/-- The values a `file_op_table_ptr` can hold: one of the five tables, `NULL`, or a
value that was never assigned. -/
inductive fops_ptr
  | term_read_ops
  | term_write_ops
  | rtc_ops
  | dir_ops
  | file_ops
  | NULL
  | wild (address : ℕ)
  deriving DecidableEq

structure fd_t where
  file_op_table_ptr : fops_ptr
  inode : Int
  file_pos : Int
  flags : Int
  deriving DecidableEq

structure pcb_t where
  file_descriptors : ℕ → fd_t
  pid : ℕ
  parent_pid : ℕ
  terminal_id : ℕ
  esp : ℕ
  ebp : ℕ
  eip : ℕ
  tss_esp0 : ℕ
  tss_ss0 : ℕ
  args : ℕ

structure tss_t where
  esp0 : ℕ
  ss0 : ℕ
  deriving DecidableEq

/-! ## The real-time clock -/

structure rtc_t where
  RTC_frequency : Int
  RTC_max_counter : Terminal → Int
  RTC_block : Terminal → Int
  RTC_counter : Terminal → Int

/-! ## The kernel -/

/-- `video` is video memory as character cells from `VIDEO_ADDR` on, `cursor` the
position in the two cursor registers of the display, and `kernel_mem` the kernel
memory that string pointers point into. `after_terminal_array` is the memory
behind the last terminal.

`line_accesses` is not in the source. It records the index of every access to a
terminal's line buffer, latest first, for the results about their bounds; no
operation reads it. -/
@[ext]
structure Kernel where
  curr_terminal : Terminal
  screen_terminal : Terminal
  terminal_array : Terminal → terminal_info_t
  after_terminal_array : ℕ → UInt8
  DISPLAY_ON_MAIN_PAGE : Int
  terminal_flag : Int
  video : Int → cell
  cursor : ℕ
  paging : Paging
  tss : tss_t
  cur_processes : ℕ → Int
  pcb : ℕ → pcb_t
  base_shell : Int
  kernel_mem : ℕ → UInt8
  dentry_counter : ℕ
  rtc : rtc_t
  line_accesses : List ℕ

/-- What the kernel is built and booted with. -/
structure Env where
  link : Linkage
  fs : file_sys

/-- Where the processor goes when an operation of the kernel ends. -/
inductive Control
  /-- Back to the caller, with a value. -/
  | ret (eax : Int)
  /-- `iret` to user code. -/
  | iret (eip : ℕ)
  /-- `system_halt`'s jump into the parent's `system_execute`. -/
  | execute_return (eax esp ebp : ℕ)
  /-- The scheduler's switch to the stack of the next process. -/
  | switch (esp ebp : ℕ)
  /-- Into a loop that waits for an interrupt. -/
  | wait
  deriving DecidableEq

namespace Kernel

/-- Assignment to fields of `terminal_array[t]`. -/
def set_terminal (k : Kernel) (t : Terminal) (f : terminal_info_t → terminal_info_t) :
    Kernel :=
  { k with terminal_array := Function.update k.terminal_array t (f (k.terminal_array t)) }

/-- Assignment to fields of the control block of `pid`. -/
def set_pcb (k : Kernel) (pid : ℕ) (f : pcb_t → pcb_t) : Kernel :=
  { k with pcb := Function.update k.pcb pid (f (k.pcb pid)) }

def set_paging (k : Kernel) (f : Paging → Paging) : Kernel :=
  { k with paging := f k.paging }

theorem set_terminal_apply (k : Kernel) (t u : Terminal) (f : terminal_info_t → terminal_info_t) :
    (k.set_terminal t f).terminal_array u
      = if u = t then f (k.terminal_array t) else k.terminal_array u :=
  Function.update_apply _ _ _ _

theorem set_pcb_apply (k : Kernel) (pid p : ℕ) (f : pcb_t → pcb_t) :
    (k.set_pcb pid f).pcb p = if p = pid then f (k.pcb pid) else k.pcb p :=
  Function.update_apply _ _ _ _

@[simp] theorem set_pcb_terminal_array (k : Kernel) (pid : ℕ) (f : pcb_t → pcb_t) :
    (k.set_pcb pid f).terminal_array = k.terminal_array := rfl

@[simp] theorem set_pcb_curr_terminal (k : Kernel) (pid : ℕ) (f : pcb_t → pcb_t) :
    (k.set_pcb pid f).curr_terminal = k.curr_terminal := rfl

@[simp] theorem set_pcb_screen_terminal (k : Kernel) (pid : ℕ) (f : pcb_t → pcb_t) :
    (k.set_pcb pid f).screen_terminal = k.screen_terminal := rfl

@[simp] theorem set_pcb_tss (k : Kernel) (pid : ℕ) (f : pcb_t → pcb_t) :
    (k.set_pcb pid f).tss = k.tss := rfl

@[simp] theorem set_terminal_pcb (k : Kernel) (t : Terminal)
    (f : terminal_info_t → terminal_info_t) : (k.set_terminal t f).pcb = k.pcb := rfl

/-- The process of the scheduled terminal, `terminal_array[curr_terminal].pid`. -/
def curr_pid (k : Kernel) : ℕ := (k.terminal_array k.curr_terminal).pid

/-- `EIGHT_MB - pid * EIGHT_KB`, the top of the kernel stack of a process. -/
def stack_top (pid : ℕ) : ℕ := u32 ((EIGHT_MB : Int) - pid * EIGHT_KB)

end Kernel

end LinuxLikeOS
