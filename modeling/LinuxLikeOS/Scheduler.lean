/-
The code that runs without being called by a process: `scheduler` of `pit.c`, the
interrupt handler of `rtc.c`, the exception handlers of `idt.c`, and `entry` of `kernel.c`
with `init_terminal`.

`scheduler` leaves by one of two doors. A terminal that has no shell yet is given
one, and `system_execute` ends in the `iret` of the new process; in every other
case the registers of the next process are loaded and the handler returns on that
process's stack. The handlers of `idt.c` differ in the text they print only.

The messages `entry` prints are left out: the `clear` behind them blanks the page,
and `init_terminal` and `clear` set the position they move.
-/
import LinuxLikeOS.Syscalls

set_option autoImplicit false

namespace LinuxLikeOS

/-- The bytes of a string literal, without the terminator. -/
def ascii (s : String) : List UInt8 := s.toList.map fun c => UInt8.ofNat c.toNat

/-! ## `pit.c` -/

/-- `(curr_terminal + 1) % MAX_TERMINALS`. -/
def next_terminal (t : Terminal) : Terminal :=
  ⟨(t.val + 1) % MAX_TERMINALS, Nat.mod_lt _ (by decide)⟩

/-- The branch that opens a terminal, before its shell is executed. -/
def open_terminal (k : Kernel) : Kernel :=
  { (clear k).set_terminal k.curr_terminal fun ti => { ti with flag := 1 } with base_shell := 1 }

/-- The page `vid_map[0]` is pointed to for the terminal now scheduled. -/
def vid_map_page (k : Kernel) : ℕ :=
  if k.curr_terminal = k.screen_terminal then VIDEO_ADDR / ALIGN
  else VIDEO_ADDR / ALIGN + (k.curr_terminal.val + 1)

/-- The rest of `scheduler`, from `next_pid = terminal_array[curr_terminal].pid` on. The registers
are loaded whatever they hold. A process recorded by an `execute` of another terminal has none
there yet, and the processor does not get further; `Moments` keeps account of that. -/
def resume_next (k : Kernel) : Control × Kernel :=
  let next_pid := k.curr_pid
  let k := k.set_paging (set_vid_map_base (vid_map_page k))
  let next_pcb := get_pcb k next_pid
  let k := k.set_paging (process_page next_pid)
  let ti := k.terminal_array k.curr_terminal
  (.switch next_pcb.esp next_pcb.ebp, { k with tss := ⟨ti.base_tss_esp0, ti.base_tss_ss0⟩ })

/-- The first half of `scheduler`: the next terminal is scheduled, and the registers
are saved for the process that was running. -/
def preempt (fr : frame) (k : Kernel) : Kernel :=
  { k with curr_terminal := next_terminal k.curr_terminal }.set_pcb k.curr_pid fun p =>
    { p with ebp := fr.ebp, esp := fr.esp }

/-- `fr` gives the registers saved on entry, and the locals of the nested
`system_execute`, which saves no registers for a base shell. -/
def scheduler (env : Env) (fr : frame) (k : Kernel) : Option (Control × Kernel) :=
  let k := preempt fr k
  if (k.terminal_array k.curr_terminal).flag = 0 then
    match system_execute env (some (ascii "shell")) fr (open_terminal k) with
    -- the shell could not be started, and the handler goes on
    | some (.ret _, k) => some (resume_next k)
    | r => r
  else some (resume_next k)

/-! ## `rtc.c` -/

/-- An interrupt of the real-time clock. Every terminal has its own counter. -/
def RTC_handler (k : Kernel) : Kernel :=
  let counter := k.rtc.RTC_counter
  { k with rtc :=
    { k.rtc with
      RTC_block := fun i => if counter i = 0 then 0 else k.rtc.RTC_block i
      -- looked at before it is decremented
      RTC_counter := fun i => if counter i = 0 then k.rtc.RTC_max_counter i else counter i - 1 } }

/-! ## `idt.c` -/

def puts (s : List UInt8) (k : Kernel) : Kernel := s.foldl (fun k c => putc c k) k

/-- The body of an exception handler. -/
def exception_handler (message : List UInt8) (k : Kernel) : Option (Control × Kernel) :=
  system_halt EXCEPTION (puts message k)

def divide_error := exception_handler (ascii "Divide Error Exception\n")
def debug := exception_handler (ascii "Debug Exception\n")
def nmi := exception_handler (ascii "NMI Interrupt\n")
def breakpoint := exception_handler (ascii "Breakpoint Exception\n")
def overflow := exception_handler (ascii "Overflow Exception\n")
def bound_range_exceeded := exception_handler (ascii "BOUND Range Exceeded Exception\n")
def invalid_opcode := exception_handler (ascii "Invalid Opcode Exception\n")
def device_not_available := exception_handler (ascii "Device Not Available Exception\n")
def double_fault := exception_handler (ascii "Double Fault Exception\n")
def coprocessor_segment_overrun := exception_handler (ascii "Coprocessor Segment Overrun\n")
def invalid_tss := exception_handler (ascii "Invalid TSS Exception\n")
def segment_not_present := exception_handler (ascii "Segment Not Present\n")
def stack_fault := exception_handler (ascii "Stack Fault Exception\n")
def general_protection := exception_handler (ascii "General Protection Exception\n")
def x87_fp_error := exception_handler (ascii "x87 FPU Floating-Point Error\n")
def alignment_check := exception_handler (ascii "Alignment Check Exception\n")
def machine_check := exception_handler (ascii "Machine-Check Exception\n")
def simd_fp_error := exception_handler (ascii "SIMD Floating-Point Exception\n")

/-- `location` is the text `%x` prints for the faulting address. -/
def page_fault (location : List UInt8) :=
  exception_handler (ascii "Page-Fault Exception: " ++ location ++ ascii " \n")

/-! ## `kernel.c` -/

/-- The colours `init_terminal` gives the terminals. -/
def terminal_attribute (t : Terminal) : UInt8 :=
  if t.val = 0 then 0x07 else if t.val = 1 then 0x70 else 0x9F

/-- `init_terminal`, which leaves the line buffers and the task state as they are. -/
def init_terminal (k : Kernel) : Kernel :=
  { k with
    curr_terminal := 0
    screen_terminal := 0
    terminal_array := fun i =>
      { k.terminal_array i with
        terminal_id := i.val
        buffer_size := 0
        screen_x := 0
        screen_y := 0
        flag := if i.val = 0 then 1 else 0
        pid := NO_PID
        waitingInRead := 0
        enter_flag := 0
        attrib := terminal_attribute i } }

def RATE_OF_LOW_FREQ : UInt8 := 3

/-- The byte `init_RTC` writes to register A of the chip; its low four bits are the rate. -/
def RTC_reg_A (prev_data : UInt8) : UInt8 := (prev_data &&& 0xF0) ||| RATE_OF_LOW_FREQ

def init_RTC (k : Kernel) : Kernel :=
  { k with rtc :=
    { k.rtc with RTC_block := fun _ => 0, RTC_max_counter := fun _ => 1, RTC_counter := fun _ => 1 } }

/-- The data segment as it is loaded: the processes table and the terminals are
zero. What the rest of memory holds is arbitrary. -/
def loaded (memory : Kernel) : Kernel :=
  { memory with
    cur_processes := fun _ => 0
    terminal_flag := 0
    terminal_array := fun _ =>
      { flag := 0, terminal_id := 0, screen_x := 0, screen_y := 0, buffer := fun _ => 0,
        buffer_size := 0, pid := 0, base_tss_esp0 := 0, base_tss_ss0 := 0, waitingInRead := 0,
        enter_flag := 0, attrib := 0, padding := fun _ => 0 }
    line_accesses := [] }

/-- `entry`, up to its call of `system_execute`. -/
def init_kernel (env : Env) (k : Kernel) : Kernel :=
  let k := { k with tss := ⟨EIGHT_MB, KERNEL_DS⟩ }
  let k := init_RTC (init_terminal k)
  let k := k.set_paging (init_page env.link)
  let k := { k with base_shell := 1, DISPLAY_ON_MAIN_PAGE := 0, dentry_counter := 0 }
  clear k

def entry (env : Env) (fr : frame) (k : Kernel) : Option (Control × Kernel) :=
  system_execute env (some (ascii "shell")) fr (init_kernel env k)

end LinuxLikeOS
