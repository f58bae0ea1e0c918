/-
Three frames: what an operation leaves alone.

`Draws` is for the routines that print: the position of a terminal moves and video
memory changes, and nothing else does. `Quiet` is for the operations between two
process switches: the descriptors of the running process, string memory and the
display may change, and everything that says which process runs where does not.
`SameMemory` is `Quiet` with the page structures, the string memory and the displayed
terminal the same as well, which is the case of the file operations. What a file operation
can do is said once, in the `_cases` lemmas; later modules start from those.
-/
import LinuxLikeOS.Machine

set_option autoImplicit false

namespace LinuxLikeOS

open Kernel

/-! ## Printing -/

/-- Only the display and the positions of the terminals differ. -/
structure Draws (k k' : Kernel) : Prop where
  terminal : ∀ t, ∃ x y,
    k'.terminal_array t = { k.terminal_array t with screen_x := x, screen_y := y }
  curr_terminal : k'.curr_terminal = k.curr_terminal
  screen_terminal : k'.screen_terminal = k.screen_terminal
  after_terminal_array : k'.after_terminal_array = k.after_terminal_array
  paging : k'.paging = k.paging
  tss : k'.tss = k.tss
  cur_processes : k'.cur_processes = k.cur_processes
  pcb : k'.pcb = k.pcb
  base_shell : k'.base_shell = k.base_shell
  kernel_mem : k'.kernel_mem = k.kernel_mem
  dentry_counter : k'.dentry_counter = k.dentry_counter
  rtc : k'.rtc = k.rtc
  line_accesses : k'.line_accesses = k.line_accesses

namespace Draws

variable {k k' k'' : Kernel}

theorem refl (k : Kernel) : Draws k k :=
  ⟨fun _ => ⟨_, _, rfl⟩, rfl, rfl, rfl, rfl, rfl, rfl, rfl, rfl, rfl, rfl, rfl, rfl⟩

theorem trans (h : Draws k k') (h' : Draws k' k'') : Draws k k'' where
  terminal t := by
    obtain ⟨x, y, hxy⟩ := h.terminal t
    obtain ⟨x', y', hxy'⟩ := h'.terminal t
    exact ⟨x', y', by rw [hxy', hxy]⟩
  curr_terminal := h'.curr_terminal.trans h.curr_terminal
  screen_terminal := h'.screen_terminal.trans h.screen_terminal
  after_terminal_array := h'.after_terminal_array.trans h.after_terminal_array
  paging := h'.paging.trans h.paging
  tss := h'.tss.trans h.tss
  cur_processes := h'.cur_processes.trans h.cur_processes
  pcb := h'.pcb.trans h.pcb
  base_shell := h'.base_shell.trans h.base_shell
  kernel_mem := h'.kernel_mem.trans h.kernel_mem
  dentry_counter := h'.dentry_counter.trans h.dentry_counter
  rtc := h'.rtc.trans h.rtc
  line_accesses := h'.line_accesses.trans h.line_accesses

/-- A new position for one terminal. -/
theorem of_set_terminal (k : Kernel) (t : Terminal) (f : terminal_info_t → terminal_info_t)
    (hf : ∀ ti, ∃ x y, f ti = { ti with screen_x := x, screen_y := y }) :
    Draws k (k.set_terminal t f) := by
  refine { refl k with terminal := fun u => ?_ }
  simp only [set_terminal]
  -- the other terminals keep the position they have
  by_cases hu : u = t
  · subst hu
    rw [Function.update_self]
    exact hf _
  · rw [Function.update_of_ne hu]
    exact ⟨_, _, rfl⟩

theorem of_video (k : Kernel) (video : Int → cell) (cursor : ℕ) (display flag : Int) :
    Draws k { k with
      video := video, cursor := cursor, DISPLAY_ON_MAIN_PAGE := display, terminal_flag := flag } :=
  { refl k with terminal := fun _ => ⟨_, _, rfl⟩ }

end Draws

theorem draws_move_cursor (k : Kernel) : Draws k (move_cursor k) :=
  .of_video k k.video _ k.DISPLAY_ON_MAIN_PAGE k.terminal_flag

theorem draws_draw_flags (k : Kernel) : Draws k (draw_flags k) := by
  unfold draw_flags
  split
  · exact .of_video k k.video k.cursor k.DISPLAY_ON_MAIN_PAGE 1
  · exact .of_video k k.video k.cursor 0 0

theorem draws_check_size (k : Kernel) : Draws k (check_size k) := by
  unfold check_size
  extract_lets true_terminal
  split
  · exact .of_set_terminal _ _ _ fun ti => ⟨_, _, rfl⟩
  · exact .refl k

theorem draws_clear (k : Kernel) : Draws k (clear k) := by
  unfold clear
  have hflags := (draws_draw_flags k).trans
    (.of_set_terminal (draw_flags k) (draw_terminal k) _ fun ti => ⟨0, 0, rfl⟩)
  exact (hflags.trans (.of_video _ _ _ _ _)).trans (draws_move_cursor _)

theorem draws_putc_store (c : UInt8) (t : Terminal) (page : Int) (ATTRIB : UInt8)
    (k : Kernel) : Draws k (putc_store c t page ATTRIB k) := by
  unfold putc_store
  split
  · exact .of_set_terminal _ _ _ fun ti => ⟨_, _, rfl⟩
  · refine Draws.trans ?_ (draws_check_size _)
    exact (Draws.of_video k _ k.cursor k.DISPLAY_ON_MAIN_PAGE k.terminal_flag).trans
      (.of_set_terminal _ _ _ fun ti => ⟨_, _, rfl⟩)

theorem draws_putc_scroll (t : Terminal) (page : Int) (ATTRIB : UInt8) (k : Kernel) :
    Draws k (putc_scroll t page ATTRIB k) := by
  unfold putc_scroll
  split
  · exact (Draws.of_video k _ k.cursor k.DISPLAY_ON_MAIN_PAGE k.terminal_flag).trans
      (.of_set_terminal _ _ _ fun ti => ⟨_, _, rfl⟩)
  · exact .refl k

theorem draws_putc (c : UInt8) (k : Kernel) : Draws k (putc c k) := by
  -- flags, character, scroll, cursor, in the order of the source
  unfold putc
  refine Draws.trans ?_ (draws_move_cursor _)
  exact ((draws_draw_flags k).trans (draws_putc_store _ _ _ _ _)).trans
    (draws_putc_scroll _ _ _ _)

theorem draws_puts (s : List UInt8) (k : Kernel) : Draws k (puts s k) := by
  unfold puts
  induction s generalizing k with
  | nil => exact .refl k
  | cons c s ih => exact (draws_putc c k).trans (ih _)

/-! ## Between two process switches -/

/-- Which process runs where is the same. The descriptors of the running process, the
string memory, the display and the video mapping may differ. -/
structure Quiet (k k' : Kernel) : Prop where
  curr_terminal : k'.curr_terminal = k.curr_terminal
  flag : ∀ t, (k'.terminal_array t).flag = (k.terminal_array t).flag
  pid : ∀ t, (k'.terminal_array t).pid = (k.terminal_array t).pid
  base_tss_esp0 : ∀ t, (k'.terminal_array t).base_tss_esp0 = (k.terminal_array t).base_tss_esp0
  base_tss_ss0 : ∀ t, (k'.terminal_array t).base_tss_ss0 = (k.terminal_array t).base_tss_ss0
  cur_processes : k'.cur_processes = k.cur_processes
  base_shell : k'.base_shell = k.base_shell
  tss : k'.tss = k.tss
  user_page : k'.paging.page_directory USER_ADDR_INDEX = k.paging.page_directory USER_ADDR_INDEX
  pcb : ∀ p, ∃ fds, k'.pcb p = { k.pcb p with file_descriptors := fds }
  other_pcb : ∀ p, p ≠ k.curr_pid → k'.pcb p = k.pcb p

namespace Quiet

variable {k k' k'' : Kernel}

theorem refl (k : Kernel) : Quiet k k :=
  ⟨rfl, fun _ => rfl, fun _ => rfl, fun _ => rfl, fun _ => rfl, rfl, rfl, rfl, rfl,
    fun _ => ⟨_, rfl⟩, fun _ _ => rfl⟩

theorem curr_pid (h : Quiet k k') : k'.curr_pid = k.curr_pid := by
  unfold Kernel.curr_pid
  rw [h.curr_terminal, h.pid]

theorem parent_pid (h : Quiet k k') (p : ℕ) : (k'.pcb p).parent_pid = (k.pcb p).parent_pid := by
  obtain ⟨fds, hfds⟩ := h.pcb p
  rw [hfds]

theorem trans (h : Quiet k k') (h' : Quiet k' k'') : Quiet k k'' where
  curr_terminal := h'.curr_terminal.trans h.curr_terminal
  flag t := (h'.flag t).trans (h.flag t)
  pid t := (h'.pid t).trans (h.pid t)
  base_tss_esp0 t := (h'.base_tss_esp0 t).trans (h.base_tss_esp0 t)
  base_tss_ss0 t := (h'.base_tss_ss0 t).trans (h.base_tss_ss0 t)
  cur_processes := h'.cur_processes.trans h.cur_processes
  base_shell := h'.base_shell.trans h.base_shell
  tss := h'.tss.trans h.tss
  user_page := h'.user_page.trans h.user_page
  pcb p := by
    obtain ⟨fds, hfds⟩ := h.pcb p
    obtain ⟨fds', hfds'⟩ := h'.pcb p
    exact ⟨fds', by rw [hfds', hfds]⟩
  other_pcb p hp := (h'.other_pcb p (by rwa [h.curr_pid])).trans (h.other_pcb p hp)

end Quiet

/-- `Quiet`, and memory behind pointers is the same too. -/
structure SameMemory (k k' : Kernel) : Prop extends Quiet k k' where
  screen_terminal : k'.screen_terminal = k.screen_terminal
  paging : k'.paging = k.paging
  kernel_mem : k'.kernel_mem = k.kernel_mem

namespace SameMemory

variable {k k' k'' : Kernel}

theorem refl (k : Kernel) : SameMemory k k := ⟨.refl k, rfl, rfl, rfl⟩

theorem trans (h : SameMemory k k') (h' : SameMemory k' k'') : SameMemory k k'' :=
  ⟨h.toQuiet.trans h'.toQuiet, h'.screen_terminal.trans h.screen_terminal,
    h'.paging.trans h.paging, h'.kernel_mem.trans h.kernel_mem⟩

/-- A descriptor of the running process. -/
theorem set_fd (i : ℕ) (f : fd_t → fd_t) (k : Kernel) : SameMemory k (set_fd k.curr_pid i f k) := by
  refine { refl k with pcb := fun p => ?_, other_pcb := fun p hp => ?_ }
  · simp only [LinuxLikeOS.set_fd, set_pcb]
    by_cases hp : p = k.curr_pid
    · subst hp
      rw [Function.update_self]
      exact ⟨_, rfl⟩
    · rw [Function.update_of_ne hp]
      exact ⟨_, rfl⟩
  · simp only [LinuxLikeOS.set_fd, set_pcb]
    rw [Function.update_of_ne hp]

/-- Terminal fields that no process switch reads. -/
theorem set_terminal (k : Kernel) (t : Terminal) (f : terminal_info_t → terminal_info_t)
    (hf : ∀ ti, (f ti).flag = ti.flag ∧ (f ti).pid = ti.pid ∧
      (f ti).base_tss_esp0 = ti.base_tss_esp0 ∧ (f ti).base_tss_ss0 = ti.base_tss_ss0) :
    SameMemory k (k.set_terminal t f) := by
  have hself : ∀ u, (k.set_terminal t f).terminal_array u
      = if u = t then f (k.terminal_array u) else k.terminal_array u := by
    intro u
    simp only [Kernel.set_terminal, Function.update_apply]
    split
    · rename_i hu
      rw [hu]
    · rfl
  refine { refl k with flag := fun u => ?_, pid := fun u => ?_, base_tss_esp0 := fun u => ?_,
                       base_tss_ss0 := fun u => ?_ } <;> rw [hself] <;> split <;> simp [hf]

end SameMemory

theorem Draws.same_memory {k k' : Kernel} (h : Draws k k') : SameMemory k k' := by
  have hti : ∀ t, (k'.terminal_array t).flag = (k.terminal_array t).flag ∧
      (k'.terminal_array t).pid = (k.terminal_array t).pid ∧
      (k'.terminal_array t).base_tss_esp0 = (k.terminal_array t).base_tss_esp0 ∧
      (k'.terminal_array t).base_tss_ss0 = (k.terminal_array t).base_tss_ss0 := by
    intro t
    obtain ⟨x, y, hxy⟩ := h.terminal t
    rw [hxy]
    exact ⟨rfl, rfl, rfl, rfl⟩
  exact
    { curr_terminal := h.curr_terminal
      flag := fun t => (hti t).1
      pid := fun t => (hti t).2.1
      base_tss_esp0 := fun t => (hti t).2.2.1
      base_tss_ss0 := fun t => (hti t).2.2.2
      cur_processes := h.cur_processes
      base_shell := h.base_shell
      tss := h.tss
      user_page := by rw [h.paging]
      screen_terminal := h.screen_terminal
      paging := h.paging
      kernel_mem := h.kernel_mem
      pcb := fun p => ⟨(k.pcb p).file_descriptors, by rw [h.pcb]⟩
      other_pcb := fun p _ => by rw [h.pcb] }

theorem Draws.quiet {k k' : Kernel} (h : Draws k k') : Quiet k k' := h.same_memory.toQuiet

theorem quiet_switch_screen (t : Terminal) (k : Kernel) : Quiet k (switch_screen t k) :=
  { Quiet.refl k with }

theorem quiet_vidmap (link : Linkage) (screen_start : ℕ) (k : Kernel) :
    Quiet k (system_vidmap link screen_start k).2 := by
  unfold system_vidmap
  split
  · refine { Quiet.refl k with user_page := ?_ }
    -- entry 33 is written, entry 32 is read
    have hne : USER_ADDR_INDEX ≠ USER_ADDR_INDEX + 1 := by decide
    simp only [set_paging, vidmap_pages]
    rw [Function.update_of_ne hne]
  · exact .refl k

theorem same_memory_set_RTC_frequency (freq : Int) (k : Kernel) : SameMemory k (set_RTC_frequency freq k) := by
  unfold set_RTC_frequency
  split
  · exact { SameMemory.refl k with }
  · exact .refl k

/-- An `open` that returns is one of three, and only the RTC's changes anything. -/
theorem fops_open_cases {ops : fops_ptr} {k k' : Kernel} {r : Int}
    (h : fops_open ops k = some (r, k')) :
    (fops_close ops).isSome = true ∧ (k' = k ∨ k' = set_RTC_frequency rtc_min_frequency k) := by
  unfold fops_open RTC_open at h
  split at h <;> simp only [Option.some.injEq, Prod.mk.injEq, reduceCtorEq] at h
  · exact ⟨rfl, Or.inr h.2.symm⟩
  · exact ⟨rfl, Or.inl h.2.symm⟩
  · exact ⟨rfl, Or.inl h.2.symm⟩

/-- `system_open` fails, or writes the first free descriptor and calls the `open` of its
file. -/
theorem system_open_cases {fs : file_sys} {filename : List UInt8} {k k' : Kernel} {r : Int}
    (h : system_open fs filename k = some (r, k')) :
    (r = -1 ∧ k' = k) ∨ ∃ (index : ℕ) (file : fd_t), r = index ∧
      (fops_close file.file_op_table_ptr).isSome = true ∧
      (k' = set_fd k.curr_pid index (fun _ => file) k ∨
        k' = set_RTC_frequency rtc_min_frequency (set_fd k.curr_pid index (fun _ => file) k)) := by
  unfold system_open at h
  split at h
  · right
    obtain ⟨⟨r₀, k₁⟩, hopen, heq⟩ := Option.map_eq_some_iff.mp h
    obtain ⟨rfl, rfl⟩ := Prod.mk.inj heq
    obtain ⟨hclose, hk₁⟩ := fops_open_cases hopen
    exact ⟨_, _, rfl, hclose, hk₁⟩
  · left
    simp only [Option.some.injEq, Prod.mk.injEq] at h
    exact ⟨h.1.symm, h.2.symm⟩

/-- `system_close` fails, or marks the descriptor as free. -/
theorem system_close_cases {fd : Int} {k k' : Kernel} {r : Int}
    (h : system_close fd k = some (r, k')) :
    k' = k ∨ k' = set_fd k.curr_pid fd.toNat closed_fd k := by
  simp only [system_close] at h
  split at h
  · right
    obtain ⟨r₀, -, heq⟩ := Option.map_eq_some_iff.mp h
    exact (Prod.mk.inj heq).2.symm
  · left
    simp only [Option.some.injEq, Prod.mk.injEq] at h
    exact h.2.symm

/-- `system_read` fails, or is the `read` of a terminal, the RTC, a directory or a file. -/
theorem system_read_cases {fs : file_sys} {fd : Int} {buf : ℕ} {nbytes : Int} {k k' : Kernel}
    {c : Control} {bytes : List UInt8} (h : system_read fs fd buf nbytes k = some (c, bytes, k')) :
    k' = k ∨ k' = (terminal_read_begin buf nbytes k).2 ∨ k' = (RTC_read_begin k).2 ∨
      ((((0 ≤ fd ∧ fd < FILE_DESCRIPTOR_MAX ∧ fd ≠ 1) ∧
            ((k.pcb k.curr_pid).file_descriptors fd.toNat).in_use) ∧
          ((k.pcb k.curr_pid).file_descriptors fd.toNat).file_op_table_ptr = .dir_ops) ∧
        k' = (read_directory fs fd.toNat k).2.2) ∨
      k' = (read_file fs fd.toNat nbytes k).2.2 := by
  simp only [system_read] at h
  split at h
  · rename_i hfd
    unfold fops_read at h
    split at h <;> simp only [Option.some.injEq, Prod.mk.injEq, reduceCtorEq] at h
    · exact Or.inr (Or.inl h.2.2.symm)
    · exact Or.inr (Or.inr (Or.inl h.2.2.symm))
    · rename_i hops
      exact Or.inr (Or.inr (Or.inr (Or.inl ⟨⟨hfd, hops⟩, h.2.2.symm⟩)))
    · exact Or.inr (Or.inr (Or.inr (Or.inr h.2.2.symm)))
  · simp only [Option.some.injEq, Prod.mk.injEq] at h
    exact Or.inl h.2.2.symm

theorem same_memory_open {fs : file_sys} {filename : List UInt8} {k k' : Kernel} {r : Int}
    (h : system_open fs filename k = some (r, k')) : SameMemory k k' := by
  rcases system_open_cases h with ⟨-, rfl⟩ | ⟨index, file, -, -, rfl | rfl⟩
  · exact .refl k'
  · exact .set_fd index _ k
  · exact SameMemory.trans (.set_fd index _ k) (same_memory_set_RTC_frequency _ _)

theorem same_memory_close {fd : Int} {k k' : Kernel} {r : Int} (h : system_close fd k = some (r, k')) :
    SameMemory k k' := by
  rcases system_close_cases h with rfl | rfl
  · exact .refl k'
  · exact .set_fd _ _ k

/-- A read from the terminal is refused, or begins to wait. -/
theorem terminal_read_begin_cases (buf : ℕ) (nbytes : Int) (k : Kernel) :
    ((buf = 0 ∨ nbytes ≤ 0) ∧ terminal_read_begin buf nbytes k = (.ret (-1), k)) ∨
      (buf ≠ 0 ∧ 0 < nbytes) ∧ terminal_read_begin buf nbytes k
        = (.wait, k.set_terminal k.curr_terminal fun ti => { ti with waitingInRead := 1 }) := by
  unfold terminal_read_begin
  by_cases hbuf : buf = 0
  · exact Or.inl ⟨Or.inl hbuf, if_pos hbuf⟩
  · rw [if_neg hbuf]
    by_cases hbytes : nbytes ≤ 0
    · exact Or.inl ⟨Or.inr hbytes, if_pos hbytes⟩
    · exact Or.inr ⟨⟨hbuf, Int.lt_of_not_ge hbytes⟩, if_neg hbytes⟩

theorem same_memory_terminal_read_begin (buf : ℕ) (nbytes : Int) (k : Kernel) :
    SameMemory k (terminal_read_begin buf nbytes k).2 := by
  rcases terminal_read_begin_cases buf nbytes k with ⟨-, hread⟩ | ⟨-, hread⟩
  · rw [hread]
    exact .refl k
  · rw [hread]
    dsimp only
    apply SameMemory.set_terminal
    exact fun ti => ⟨rfl, rfl, rfl, rfl⟩

theorem same_memory_read_directory (fs : file_sys) (fd : ℕ) (k : Kernel) :
    SameMemory k (read_directory fs fd k).2.2 := by
  unfold read_directory
  split <;> exact { SameMemory.refl k with }

theorem same_memory_read_file (fs : file_sys) (fd : ℕ) (nbytes : Int) (k : Kernel) :
    SameMemory k (read_file fs fd nbytes k).2.2 := by
  unfold read_file
  split
  · exact .refl k
  · dsimp only
    exact .set_fd _ _ k

theorem same_memory_read {fs : file_sys} {fd : Int} {buf : ℕ} {nbytes : Int} {k k' : Kernel}
    {c : Control} {bytes : List UInt8} (h : system_read fs fd buf nbytes k = some (c, bytes, k')) :
    SameMemory k k' := by
  rcases system_read_cases h with rfl | rfl | rfl | ⟨-, rfl⟩ | rfl
  · exact .refl k'
  · exact same_memory_terminal_read_begin buf nbytes k
  · exact { SameMemory.refl k with }
  · exact same_memory_read_directory fs _ k
  · exact same_memory_read_file fs _ nbytes k

end LinuxLikeOS
