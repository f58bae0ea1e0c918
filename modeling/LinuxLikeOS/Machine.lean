/-
The kernel as one transition system.

A state is the kernel record. An operation is an interrupt or an exception, or a
system call made by the process of the scheduled terminal. That each runs to its end
before the next one starts is an assumption: `system_halt` has its `sti` before the
loads of the parent's registers, and `system_vidmap`, `set_RTC_frequency` and
`read_directory` run with interrupts on. `kstep` gives the state after the operation,
and no state when the processor faults inside it. Every interleaving of the interrupts
with the calls of the processes on the three terminals is then a list of operations.

`Moments` is the same machine without the two simplifications: `system_halt` is cut at
its `sti`, and a page fault in the kernel goes on in the handler.

Runs start where the boot code leaves the kernel: `entry` has executed the shell of
terminal 0, and the first two timer interrupts have executed the other two.
-/
import LinuxLikeOS.Scheduler
import LinuxLikeOS.Transition

set_option autoImplicit false

namespace LinuxLikeOS

/-- The operations on processes, descriptors and the screen. -/
inductive Op
  /-- A timer interrupt. -/
  | tick (fr : frame)
  /-- Alt and a function key. -/
  | switch_screen (t : Terminal)
  | execute (command : Option (List UInt8)) (fr : frame)
  | halt (status : UInt8)
  /-- A processor exception in user code, with the text its handler prints. -/
  | exception (message : List UInt8)
  | open (filename : List UInt8)
  | close (fd : Int)
  | read (fd : Int) (buf : ℕ) (nbytes : Int)
  | vidmap (screen_start : ℕ)

/-- An operation: where control goes and the kernel it leaves. -/
def perform (env : Env) (k : Kernel) : Op → Option (Control × Kernel)
  | .tick fr => scheduler env fr k
  | .switch_screen t => some (.ret 0, switch_screen t k)
  | .execute command fr => system_execute env command fr k
  | .halt status => system_halt status.toNat k
  | .exception message => exception_handler message k
  | .open filename => (system_open env.fs filename k).map fun r => (.ret r.1, r.2)
  | .close fd => (system_close fd k).map fun r => (.ret r.1, r.2)
  | .read fd buf nbytes => (system_read env.fs fd buf nbytes k).map fun r => (r.1, r.2.2)
  | .vidmap screen_start =>
      some (.ret (system_vidmap env.link screen_start k).1, (system_vidmap env.link screen_start k).2)

def kstep (env : Env) (k : Kernel) (op : Op) : Option Kernel := (perform env k op).map Prod.snd

theorem kstep_eq_some {env : Env} {k k' : Kernel} {op : Op} :
    kstep env k op = some k' ↔ ∃ c, perform env k op = some (c, k') := by
  unfold kstep
  rw [Option.map_eq_some_iff]
  constructor
  · rintro ⟨⟨c, k₁⟩, h, rfl⟩
    exact ⟨c, h⟩
  · rintro ⟨c, h⟩
    exact ⟨_, h, rfl⟩

/-! ## The start -/

/-- The kernel of an operation that ended in the `iret` of a new process. -/
def new_process : Option (Control × Kernel) → Option Kernel
  | some (.iret _, k) => some k
  | _ => none

/-- The boot and the first two timer interrupts, on any memory. -/
def bootstrap (env : Env) (memory : Kernel) (fr₀ fr₁ fr₂ : frame) : Option Kernel :=
  (new_process (entry env fr₀ (loaded memory))).bind fun k =>
    (new_process (scheduler env fr₁ k)).bind fun k => new_process (scheduler env fr₂ k)

/-- The three base shells have been started. -/
def Started (env : Env) (k : Kernel) : Prop :=
  ∃ memory fr₀ fr₁ fr₂, bootstrap env memory fr₀ fr₁ fr₂ = some k

/-! ## A small image

One directory and one program of 28 bytes, for evaluating the model. -/

def demo_fs : file_sys where
  boot_block :=
    { dir_count := 2
      inode_count := 1
      direntries := fun i =>
        if i = 0 then ⟨c_str (ascii "."), 1, 0⟩
        else if i = 1 then ⟨c_str (ascii "shell"), 2, 0⟩
        else ⟨fun _ => 0, 0, 0⟩ }
  inode := fun _ => ⟨28, fun _ => 0⟩
  data_block := fun _ =>
    c_str ([0x7F, 0x45, 0x4C, 0x46] ++ List.replicate 20 0 ++ [0x18, 0x80, 0x04, 0x08])

def demo_env : Env where
  fs := demo_fs
  link :=
    { page_table := 0x405000
      vid_map := 0x406000
      empty_string := 0x404000
      args_room := 8
      other_frame := fun _ _ => 0
      page_table_aligned := by decide
      vid_map_aligned := by decide
      page_table_lt := by decide
      vid_map_lt := by decide
      page_table_ne_vid_map := by decide }

/-- The address of a buffer in the user page. -/
def demo_buf : ℕ := 0x8050000

def demo_frame (esp ebp : ℕ) : frame := ⟨fun _ => 0, fun _ => 0, esp, ebp⟩

/-- Memory full of zeros. -/
def demo_memory : Kernel where
  curr_terminal := 0
  screen_terminal := 0
  terminal_array := fun _ =>
    { flag := 0, terminal_id := 0, screen_x := 0, screen_y := 0, buffer := fun _ => 0,
      buffer_size := 0, pid := 0, base_tss_esp0 := 0, base_tss_ss0 := 0, waitingInRead := 0,
      enter_flag := 0, attrib := 0, padding := fun _ => 0 }
  after_terminal_array := fun _ => 0
  DISPLAY_ON_MAIN_PAGE := 0
  terminal_flag := 0
  video := fun _ => ⟨0, 0⟩
  cursor := 0
  paging := ⟨fun _ => 0, fun _ => 0, fun _ => 0⟩
  tss := ⟨0, 0⟩
  cur_processes := fun _ => 0
  pcb := fun _ => ⟨fun _ => ⟨.NULL, 0, 0, 0⟩, 0, 0, 0, 0, 0, 0, 0, 0, 0⟩
  base_shell := 0
  kernel_mem := fun _ => 0
  dentry_counter := 0
  rtc := ⟨0, fun _ => 0, fun _ => 0, fun _ => 0⟩
  line_accesses := []

def demo_boot : Option Kernel :=
  bootstrap demo_env demo_memory (demo_frame 0 0) (demo_frame 1 1) (demo_frame 2 2)

theorem demo_boot_isSome : demo_boot.isSome = true := by decide +kernel

/-- The small image with its three shells started. -/
def demo : Kernel := demo_boot.get demo_boot_isSome

theorem demo_started : Started demo_env demo :=
  ⟨demo_memory, demo_frame 0 0, demo_frame 1 1, demo_frame 2 2, (Option.some_get _).symm⟩

theorem demo_tick_isSome : (kstep demo_env demo (.tick (demo_frame 3 3))).isSome = true := by
  decide +kernel

/-- The same with the terminal on display scheduled. -/
def demo_front : Kernel := (kstep demo_env demo (.tick (demo_frame 3 3))).get demo_tick_isSome

theorem demo_front_step : kstep demo_env demo (.tick (demo_frame 3 3)) = some demo_front :=
  (Option.some_get _).symm

end LinuxLikeOS
